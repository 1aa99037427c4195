import RtemsTools.Syms.Layout

/-! # rtems-syms: `main` and `generate_symmap`

`main`, once `getopt_long` has set its options: it checks the arguments left, loads the
kernel's symbols, selects the compiler, filters the symbols, writes the map file if asked,
and generates and compiles the symbol table if asked. The C file is a temporary file, deleted
when it goes out of scope, unless `-S` names it or `-k` keeps temporaries. An `rld::error`
ends `main` with exit code 10, and another `std::exception`, such as the `std::regex_error`
of a pattern, with 11. The ELF loader, the body of the map file, the file system and the
compiler are services it calls, and the model takes their answers as parameters.
-/

namespace RtemsTools.Syms

open Toolchain

structure Status where
  normal : Bool
  code : Int
deriving DecidableEq, Repr

/-- The compiler settings of `rld::cc` that options set: `set_cc`, `set_exec_prefix` and
`set_flags` for the C flags, each replacing the last. -/
structure CcState where
  cc : Option String := none
  execPrefix : Option String := none
  cflags : Option String := none
deriving DecidableEq, Repr

/-- The services `main` calls: `std::regex`, `kernel.load_symbols`, `rld::elf::machine_type`
of the kernel, whether the map file's `std::ofstream` opens, `rld::symbols::output`, the name
of the temporary C file, its `open (true)`, `make_cc_command` with the C flags of
`append_flags`, and `rld::process::execute` of the compiler on its arguments and the C file's
lines, which throws when the scratch files for the compiler's output and errors do not open. -/
structure Services where
  regex : RegexEngine
  loadSymbols : String → Except RldError (Symtab × Symtab)
  machineType : String → Except RldError String
  mapOpens : String → Bool
  symbolsOutput : Symtab → List String
  tempName : String
  openC : String → Except RldError Unit
  compilerCommand : CcState → List String
  execute : List String → List String → Except RldError Status

/-- The options `main` has after `getopt_long`, and the arguments left. -/
structure Options where
  kernels : List String
  output : String := ""
  map : String := ""
  symc : String := ""
  embed : Bool := false
  filter : SymbolFilter := {}
  keep : Bool := false
  cc : CcState := {}

/-- The files `main` writes: the map file and the C file, with their names and lines, and
whether the C file is deleted at the end of the run. -/
structure Written where
  map : Option (String × List String) := none
  cFile : Option (String × List String) := none
  cFileRemoved : Bool := false
deriving DecidableEq, Repr

def liftExcept {α : Type} : Except SymsError α → EStateM SymsError Written α
  | .ok a => pure a
  | .error e => throw e

/-- The checks of the arguments left: one kernel, and an output or a map. -/
def kernelArg (o : Options) : Except RldError String :=
  match o.kernels with
  | [] => .error ⟨"no kernel file", "options"⟩
  | _ :: _ :: _ => .error ⟨"only one kernel file", "options"⟩
  | [kernelName] =>
    if o.output = "" ∧ o.map = "" then .error ⟨"no output or map", "options"⟩ else .ok kernelName

/-- The compiler selection after loading: with neither `-C` nor `-E` the exec prefix is the
kernel's machine type. `main`'s local `cc` is never assigned, so its test is dead. -/
def selectCc (svc : Services) (kernelName : String) (c : CcState) : Except RldError CcState :=
  if c.cc = none ∧ c.execPrefix = none then
    (svc.machineType kernelName).map fun m => { c with execPrefix := some m }
  else .ok c

def symmapArgs (svc : Services) (cc : CcState) (output cName : String) : List String :=
  svc.compilerCommand cc ++ ["-O2", "-c", "-o", output, cName]

/-- `generate_symmap`: open and write the C file, then compile it into `output`. -/
def generateSymmap (svc : Services) (cc : CcState) (cName output : String) (symbols : Symtab)
    (embed : Bool) : EStateM SymsError Written Unit := do
  liftExcept ((svc.openC cName).mapError .rld)
  modify fun w => { w with cFile := some (cName, generateC symbols embed) }
  let status ← liftExcept
    ((svc.execute (symmapArgs svc cc output cName) (generateC symbols embed)).mapError .rld)
  if status.normal = false ∨ status.code ≠ 0 then
    throw (.rld ⟨"Compiler error", "compiling wrapper"⟩)

def mapHeader (kernelName : String) : List String :=
  ["RTEMS Kernel Symbols Map", " kernel: " ++ kernelName, ""]

/-- The C file's name: the temporary file's, unless `-S` names one. -/
def cFileName (svc : Services) (o : Options) : String := if o.symc ≠ "" then o.symc else svc.tempName

/-- Whether `c` is deleted when it goes out of scope: it is a temporary file, kept only when
`-S` names it (`c.keep ()`) or `-k` keeps every temporary file. -/
def removesCFile (o : Options) : Bool := o.symc = "" ∧ o.keep = false

/-- The block of `main` that makes the object: `generate_symmap` on `c`, which is deleted at
the end of the block, however it ends, unless it is kept. -/
def outputObject (svc : Services) (o : Options) (cc : CcState) (filtered : Symtab) :
    EStateM SymsError Written Unit :=
  tryFinally (generateSymmap svc cc (cFileName svc o) o.output filtered o.embed)
    (modify fun w => { w with cFileRemoved := removesCFile o })

/-- The end of `main`: the map file if asked, then the symbol table if asked. -/
def writeOutputs (svc : Services) (o : Options) (cc : CcState) (kernelName : String)
    (filtered : Symtab) : EStateM SymsError Written Unit := do
  if o.map ≠ "" then
    if !svc.mapOpens o.map then throw (.rld ⟨"map file open failed", "map"⟩)
    modify fun w => { w with map := some (o.map, mapHeader kernelName ++ svc.symbolsOutput filtered) }
  if o.output ≠ "" then outputObject svc o cc filtered

/-- `main` after the options. -/
def main (svc : Services) (o : Options) : EStateM SymsError Written Unit := do
  let kernelName ← liftExcept ((kernelArg o).mapError .rld)
  let (globals, weaks) ← liftExcept ((svc.loadSymbols kernelName).mapError .rld)
  let cc ← liftExcept ((selectCc svc kernelName o.cc).mapError .rld)
  let filtered ← liftExcept (filterSymbols svc.regex o.filter globals weaks)
  writeOutputs svc o cc kernelName filtered

/-- The exit code of `main`: 0, 10 after an `rld::error`, 11 after another exception. -/
def exitCode : EStateM.Result SymsError Written Unit → Nat
  | .ok _ _ => 0
  | .error (.rld _) _ => 10
  | .error (.regex _) _ => 11


/-! ## A step at a time -/

@[simp] theorem liftExcept_run_ok {α : Type} (a : α) (w : Written) :
    (liftExcept (.ok a)).run w = .ok a w := rfl

@[simp] theorem liftExcept_run_error {α : Type} (e : SymsError) (w : Written) :
    (liftExcept (.error e : Except SymsError α)).run w = .error e w := rfl

/-- What `generate_symmap` can do: fail to open the C file, with nothing written; or write
it, and then have `execute` throw, or the compiler fail or succeed. -/
theorem generateSymmap_run (svc : Services) (cc : CcState) (cName output : String)
    (symbols : Symtab) (embed : Bool) (w : Written) :
    (generateSymmap svc cc cName output symbols embed).run w =
      match svc.openC cName with
      | .error e => .error (.rld e) w
      | .ok () =>
        match svc.execute (symmapArgs svc cc output cName) (generateC symbols embed) with
        | .error e => .error (.rld e) { w with cFile := some (cName, generateC symbols embed) }
        | .ok status =>
          if status = ⟨true, 0⟩ then .ok () { w with cFile := some (cName, generateC symbols embed) }
          else .error (.rld ⟨"Compiler error", "compiling wrapper"⟩)
            { w with cFile := some (cName, generateC symbols embed) } := by
  cases hopen : svc.openC cName with
  | error e => simp [generateSymmap, hopen, Except.mapError]
  | ok u =>
    cases hexec : svc.execute (symmapArgs svc cc output cName) (generateC symbols embed) with
    | error e => simp [generateSymmap, hopen, hexec, Except.mapError]
    | ok status =>
      obtain ⟨n, c⟩ := status
      cases n <;> by_cases hc : c = 0 <;> simp [generateSymmap, hopen, hexec, Except.mapError, hc]

section Outputs

variable (svc : Services) (o : Options) (cc : CcState) (kernelName : String) (filtered : Symtab)

theorem outputObject_run (w : Written) :
    (outputObject svc o cc filtered).run w =
      match svc.openC (cFileName svc o) with
      | .error e => .error (.rld e) { w with cFileRemoved := removesCFile o }
      | .ok () =>
        let w' := { w with cFile := some (cFileName svc o, generateC filtered o.embed),
                           cFileRemoved := removesCFile o }
        match svc.execute (symmapArgs svc cc o.output (cFileName svc o)) (generateC filtered o.embed) with
        | .error e => .error (.rld e) w'
        | .ok status =>
          if status = ⟨true, 0⟩ then .ok () w' else .error (.rld ⟨"Compiler error", "compiling wrapper"⟩) w' := by
  rw [outputObject, estate_run_tryFinally_modify, generateSymmap_run]
  rcases svc.openC (cFileName svc o) with e | ⟨⟩
  · rfl
  rcases svc.execute (symmapArgs svc cc o.output (cFileName svc o)) (generateC filtered o.embed)
    with e | status
  · rfl
  · dsimp only
    split_ifs <;> rfl

theorem writeOutputs_run (w : Written) :
    (writeOutputs svc o cc kernelName filtered).run w =
      if o.map ≠ "" ∧ svc.mapOpens o.map = false then .error (.rld ⟨"map file open failed", "map"⟩) w
      else
        let w₁ := if o.map ≠ "" then
          { w with map := some (o.map, mapHeader kernelName ++ svc.symbolsOutput filtered) } else w
        if o.output ≠ "" then (outputObject svc o cc filtered).run w₁ else .ok () w₁ := by
  by_cases hm : o.map = ""
  · by_cases ho : o.output = "" <;> simp [writeOutputs, hm, ho]
  · cases hopen : svc.mapOpens o.map <;> by_cases ho : o.output = "" <;> simp [writeOutputs, hm, ho, hopen]

theorem outputObject_run_ne_regex (w w' : Written) (re : String) :
    (outputObject svc o cc filtered).run w ≠ .error (.regex re) w' := by
  rw [outputObject_run]
  rcases svc.openC (cFileName svc o) with e | ⟨⟩
  · simp
  rcases svc.execute (symmapArgs svc cc o.output (cFileName svc o)) (generateC filtered o.embed)
    with e | status
  · simp
  · dsimp only
    split_ifs <;> simp

theorem writeOutputs_run_ne_regex (w₀ w : Written) (re : String) :
    (writeOutputs svc o cc kernelName filtered).run w₀ ≠ .error (.regex re) w := by
  rw [writeOutputs_run]
  by_cases hmo : o.map ≠ "" ∧ svc.mapOpens o.map = false
  · simp [hmo]
  rw [if_neg hmo]
  by_cases ho : o.output ≠ ""
  · simp only [if_pos ho]
    exact outputObject_run_ne_regex svc o cc filtered _ _ re
  · simp [ho]

theorem writeOutputs_run_eq_rld (w₀ w : Written) (e : RldError)
    (h : (writeOutputs svc o cc kernelName filtered).run w₀ = .error (.rld e) w) :
    (o.map ≠ "" ∧ svc.mapOpens o.map = false ∧ e = ⟨"map file open failed", "map"⟩ ∧ w = w₀) ∨
    (o.output ≠ "" ∧ (o.map ≠ "" → svc.mapOpens o.map = true) ∧
      w.map = (if o.map ≠ "" then some (o.map, mapHeader kernelName ++ svc.symbolsOutput filtered)
               else w₀.map) ∧
      w.cFileRemoved = removesCFile o ∧
      ((svc.openC (cFileName svc o) = .error e ∧ w.cFile = w₀.cFile) ∨
       (svc.openC (cFileName svc o) = .ok () ∧
        w.cFile = some (cFileName svc o, generateC filtered o.embed) ∧
        (svc.execute (symmapArgs svc cc o.output (cFileName svc o)) (generateC filtered o.embed) =
            .error e ∨
         ∃ status, svc.execute (symmapArgs svc cc o.output (cFileName svc o))
            (generateC filtered o.embed) = .ok status ∧ status ≠ ⟨true, 0⟩ ∧
          e = ⟨"Compiler error", "compiling wrapper"⟩)))) := by
  rw [writeOutputs_run] at h
  by_cases hmo : o.map ≠ "" ∧ svc.mapOpens o.map = false
  · -- The map file does not open.
    simp only [if_pos hmo, EStateM.Result.error.injEq, SymsError.rld.injEq] at h
    exact .inl ⟨hmo.1, hmo.2, h.1.symm, h.2.symm⟩
  rw [if_neg hmo] at h
  have hopen : o.map ≠ "" → svc.mapOpens o.map = true := by simpa using hmo
  by_cases ho : o.output = ""
  · split_ifs at h <;> simp_all
  refine .inr ⟨ho, hopen, ?_⟩
  rw [if_pos ho, outputObject_run] at h
  set w₁ : Written := if o.map ≠ "" then
    { w₀ with map := some (o.map, mapHeader kernelName ++ svc.symbolsOutput filtered) } else w₀ with hw₁
  have hmap : w₁.map =
      if o.map ≠ "" then some (o.map, mapHeader kernelName ++ svc.symbolsOutput filtered) else w₀.map := by
    rw [hw₁]; split_ifs <;> rfl
  rcases hc : svc.openC (cFileName svc o) with e' | ⟨⟩ <;> rw [hc] at h
  · -- The C file does not open.
    cases h
    exact ⟨hmap, rfl, .inl ⟨rfl, by rw [hw₁]; split_ifs <;> rfl⟩⟩
  rcases hx : svc.execute (symmapArgs svc cc o.output (cFileName svc o)) (generateC filtered o.embed)
    with e' | status <;> rw [hx] at h
  · -- `execute` throws.
    cases h
    exact ⟨hmap, rfl, .inr ⟨rfl, rfl, .inl rfl⟩⟩
  · -- The compiler fails.
    by_cases hs : status = ⟨true, 0⟩
    · simp [hs] at h
    simp only [if_neg hs] at h
    cases h
    exact ⟨hmap, rfl, .inr ⟨rfl, rfl, .inr ⟨status, rfl, hs, rfl⟩⟩⟩

end Outputs

theorem kernelArg_eq_ok {o : Options} {kernelName : String} :
    kernelArg o = .ok kernelName ↔ o.kernels = [kernelName] ∧ (o.output ≠ "" ∨ o.map ≠ "") := by
  unfold kernelArg
  split
  · simp_all
  · simp_all
  · split_ifs with h <;> simp_all [or_iff_not_and_not]

theorem kernelArg_eq_error {o : Options} {e : RldError} :
    kernelArg o = .error e ↔
      (o.kernels = [] ∧ e = ⟨"no kernel file", "options"⟩) ∨
      (2 ≤ o.kernels.length ∧ e = ⟨"only one kernel file", "options"⟩) ∨
      ∃ kernelName, o.kernels = [kernelName] ∧ o.output = "" ∧ o.map = "" ∧
        e = ⟨"no output or map", "options"⟩ := by
  unfold kernelArg
  split
  · simp_all [eq_comm]
  · simp_all [eq_comm]
  · rename_i k heq
    split_ifs with h
    · simp [heq, h, @eq_comm _ e]
    · simp only [heq, h]
      simpa using fun h₁ h₂ => absurd ⟨h₁, h₂⟩ h

/-- What a run of `main` from the start can do: fail its checks, the loader, the compiler
selection or the filter, with nothing written, or run its end. -/
theorem main_run (svc : Services) (o : Options) :
    (main svc o).run {} =
      match kernelArg o with
      | .error e => .error (.rld e) {}
      | .ok kernelName =>
        match svc.loadSymbols kernelName with
        | .error e => .error (.rld e) {}
        | .ok (globals, weaks) =>
          match selectCc svc kernelName o.cc with
          | .error e => .error (.rld e) {}
          | .ok cc =>
            match filterSymbols svc.regex o.filter globals weaks with
            | .error e => .error e {}
            | .ok filtered => (writeOutputs svc o cc kernelName filtered).run {} := by
  simp only [main, estate_run_bind]
  rcases kernelArg o with e | k
  · rfl
  simp only [Except.mapError, liftExcept_run_ok]
  rcases svc.loadSymbols k with e | ⟨g, wk⟩
  · rfl
  simp only [Except.mapError, liftExcept_run_ok]
  rcases selectCc svc k o.cc with e | cc
  · rfl
  simp only [Except.mapError, liftExcept_run_ok]
  rcases filterSymbols svc.regex o.filter g wk with e | fs <;> rfl

theorem main_run_eq_regex (svc : Services) (o : Options) (re : String) (w : Written) :
    (main svc o).run {} = .error (.regex re) w ↔
      ∃ kernelName globals weaks cc, kernelArg o = .ok kernelName ∧
        svc.loadSymbols kernelName = .ok (globals, weaks) ∧ selectCc svc kernelName o.cc = .ok cc ∧
        filterSymbols svc.regex o.filter globals weaks = .error (.regex re) ∧ w = {} := by
  constructor
  · intro h
    rw [main_run] at h
    rcases hk : kernelArg o with e | k <;> simp only [hk] at h
    · cases h
    rcases hl : svc.loadSymbols k with e | ⟨g, wk⟩ <;> simp only [hl] at h
    · cases h
    rcases hc : selectCc svc k o.cc with e | cc <;> simp only [hc] at h
    · cases h
    rcases hf : filterSymbols svc.regex o.filter g wk with e | fs <;> simp only [hf] at h
    · cases h
      exact ⟨k, g, wk, cc, rfl, hl, hc, hf, rfl⟩
    · exact absurd h (writeOutputs_run_ne_regex svc o cc k fs {} w re)
  · rintro ⟨k, g, wk, cc, hk, hl, hc, hf, rfl⟩
    rw [main_run, hk]
    simp only [hl, hc, hf]

theorem exitCode_eq_eleven (r : EStateM.Result SymsError Written Unit) :
    exitCode r = 11 ↔ ∃ re w, r = .error (.regex re) w := by
  rcases r with ⟨⟨⟩, w⟩ | ⟨⟨⟩ | ⟨⟩, w⟩ <;> simp [exitCode]


/-! ## Exit codes -/

/-- **A bad pattern ends rtems-syms with 11.** `main` exits with 11, the code of an exception
that is no `rld::error`, just when its arguments pass the checks, the kernel loads, the
compiler is selected and a pattern does not compile, whether or not any symbol would match;
it has written nothing. -/
theorem main_exit_regex (svc : Services) (o : Options) :
    (exitCode ((main svc o).run {}) = 11 ↔
      ∃ kernelName globals weaks cc, o.kernels = [kernelName] ∧ (o.output ≠ "" ∨ o.map ≠ "") ∧
        svc.loadSymbols kernelName = .ok (globals, weaks) ∧ selectCc svc kernelName o.cc = .ok cc ∧
        ∃ re ∈ o.filter.expr, svc.regex.compiles re = false) ∧
    ∀ re w, (main svc o).run {} = .error (.regex re) w → w = {} := by
  refine ⟨?_, fun re w h => ?_⟩
  · simp only [exitCode_eq_eleven, main_run_eq_regex, kernelArg_eq_ok]
    constructor
    · rintro ⟨re, w, k, g, wk, cc, ⟨hk, ho⟩, hl, hc, hf, -⟩
      exact ⟨k, g, wk, cc, hk, ho, hl, hc, (filterSymbols_eq_regex_iff svc.regex o.filter g wk).1 ⟨re, hf⟩⟩
    · rintro ⟨k, g, wk, cc, hk, ho, hl, hc, hbad⟩
      obtain ⟨re, hf⟩ := (filterSymbols_eq_regex_iff svc.regex o.filter g wk).2 hbad
      exact ⟨re, {}, k, g, wk, cc, ⟨hk, ho⟩, hl, hc, hf, rfl⟩
  · obtain ⟨-, -, -, -, -, -, -, -, hw⟩ := (main_run_eq_regex svc o re w).1 h
    exact hw

/-- **The errors that end rtems-syms with 10.** Each `rld::error` `main` ends with comes
from its check: no kernel, more than one, neither output nor map, the kernel's loader, the
kernel's machine type, a filter that selects no symbol, a map file that does not open, a C
file that does not open, `execute`, a compiler that fails. Only the last three leave a C file
written, and only the last four the map file asked for; the C file is deleted unless `-S`
names it or `-k` is given. -/
theorem main_rld_error (svc : Services) (o : Options) (e : RldError) (w : Written)
    (h : (main svc o).run {} = .error (.rld e) w) :
    exitCode ((main svc o).run {}) = 10 ∧
    ((o.kernels = [] ∧ e = ⟨"no kernel file", "options"⟩ ∧ w = {}) ∨
     (2 ≤ o.kernels.length ∧ e = ⟨"only one kernel file", "options"⟩ ∧ w = {}) ∨
     ∃ kernelName, o.kernels = [kernelName] ∧
      ((o.output = "" ∧ o.map = "" ∧ e = ⟨"no output or map", "options"⟩ ∧ w = {}) ∨
       ((o.output ≠ "" ∨ o.map ≠ "") ∧
        ((svc.loadSymbols kernelName = .error e ∧ w = {}) ∨
         ∃ globals weaks, svc.loadSymbols kernelName = .ok (globals, weaks) ∧
          ((selectCc svc kernelName o.cc = .error e ∧ w = {}) ∨
           ∃ cc, selectCc svc kernelName o.cc = .ok cc ∧
            (((∀ re ∈ o.filter.expr, svc.regex.compiles re) ∧
              (∀ sym ∈ globals.entries ++ weaks.entries, ¬ o.filter.Selects svc.regex sym.2) ∧
              e = ⟨"no filtered symbols", "filter"⟩ ∧ w = {}) ∨
             ∃ filtered, filterSymbols svc.regex o.filter globals weaks = .ok filtered ∧
              ((o.map ≠ "" ∧ svc.mapOpens o.map = false ∧ e = ⟨"map file open failed", "map"⟩ ∧
                  w = {}) ∨
               (o.output ≠ "" ∧ (o.map ≠ "" → svc.mapOpens o.map = true) ∧
                w.map = (if o.map ≠ "" then
                  some (o.map, mapHeader kernelName ++ svc.symbolsOutput filtered) else none) ∧
                w.cFileRemoved = removesCFile o ∧
                ((svc.openC (cFileName svc o) = .error e ∧ w.cFile = none) ∨
                 (svc.openC (cFileName svc o) = .ok () ∧
                  w.cFile = some (cFileName svc o, generateC filtered o.embed) ∧
                  (svc.execute (symmapArgs svc cc o.output (cFileName svc o))
                      (generateC filtered o.embed) = .error e ∨
                   ∃ status, svc.execute (symmapArgs svc cc o.output (cFileName svc o))
                      (generateC filtered o.embed) = .ok status ∧ status ≠ ⟨true, 0⟩ ∧
                    e = ⟨"Compiler error", "compiling wrapper"⟩))))))))))) := by
  refine ⟨by rw [h]; rfl, ?_⟩
  rw [main_run] at h
  rcases hk : kernelArg o with e' | k <;> simp only [hk] at h
  · -- The checks fail.
    cases h
    rcases kernelArg_eq_error.1 hk with ⟨h₁, h₂⟩ | ⟨h₁, h₂⟩ | ⟨k, h₁, h₂, h₃, h₄⟩
    · exact .inl ⟨h₁, h₂, rfl⟩
    · exact .inr (.inl ⟨h₁, h₂, rfl⟩)
    · exact .inr (.inr ⟨k, h₁, .inl ⟨h₂, h₃, h₄, rfl⟩⟩)
  obtain ⟨hk, ho⟩ := kernelArg_eq_ok.1 hk
  refine .inr (.inr ⟨k, hk, .inr ⟨ho, ?_⟩⟩)
  rcases hl : svc.loadSymbols k with e' | ⟨g, wk⟩ <;> simp only [hl] at h
  · -- The kernel's loader throws.
    cases h
    exact .inl ⟨rfl, rfl⟩
  refine .inr ⟨g, wk, rfl, ?_⟩
  rcases hc : selectCc svc k o.cc with e' | cc <;> simp only [hc] at h
  · -- The machine type is not found.
    cases h
    exact .inl ⟨rfl, rfl⟩
  refine .inr ⟨cc, rfl, ?_⟩
  rcases hf : filterSymbols svc.regex o.filter g wk with e' | fs <;> simp only [hf] at h
  · -- The filtering throws, and it is no regex error.
    cases h
    obtain ⟨rfl, hcomp, hsel⟩ := filterSymbols_eq_rld _ _ _ _ hf
    exact .inl ⟨hcomp, hsel, rfl, rfl⟩
  · -- The end of `main` throws.
    exact .inr ⟨fs, rfl, writeOutputs_run_eq_rld svc o cc k fs {} w e h⟩

theorem main_rld_error_example :
    let kernelSyms : Symtab :=
      ⟨[("foo", ⟨"foo", "foo", 0x1234, 2, STB_GLOBAL⟩)], List.pairwise_singleton _ _⟩
    let svc : Services := ⟨⟨fun _ => true, fun re text => re == text⟩, fun _ => .ok (kernelSyms, .empty),
      fun _ => .ok "sparc-rtems6", fun _ => true, fun _ => [], "/tmp/rld--1.c",
      fun _ => .error ⟨"open failed", "/tmp/rld--1.c"⟩, fun _ => ["sparc-rtems6-gcc"],
      fun _ _ => .ok ⟨true, 0⟩⟩
    let o : Options := { kernels := ["rtems.exe"], output := "syms.o" }
    let e : RldError := ⟨"open failed", "/tmp/rld--1.c"⟩
    let w : Written := { cFileRemoved := true }
    (main svc o).run {} = .error (.rld e) w ∧
    exitCode ((main svc o).run {}) = 10 ∧
    ((o.kernels = [] ∧ e = ⟨"no kernel file", "options"⟩ ∧ w = {}) ∨
     (2 ≤ o.kernels.length ∧ e = ⟨"only one kernel file", "options"⟩ ∧ w = {}) ∨
     ∃ kernelName, o.kernels = [kernelName] ∧
      ((o.output = "" ∧ o.map = "" ∧ e = ⟨"no output or map", "options"⟩ ∧ w = {}) ∨
       ((o.output ≠ "" ∨ o.map ≠ "") ∧
        ((svc.loadSymbols kernelName = .error e ∧ w = {}) ∨
         ∃ globals weaks, svc.loadSymbols kernelName = .ok (globals, weaks) ∧
          ((selectCc svc kernelName o.cc = .error e ∧ w = {}) ∨
           ∃ cc, selectCc svc kernelName o.cc = .ok cc ∧
            (((∀ re ∈ o.filter.expr, svc.regex.compiles re) ∧
              (∀ sym ∈ globals.entries ++ weaks.entries, ¬ o.filter.Selects svc.regex sym.2) ∧
              e = ⟨"no filtered symbols", "filter"⟩ ∧ w = {}) ∨
             ∃ filtered, filterSymbols svc.regex o.filter globals weaks = .ok filtered ∧
              ((o.map ≠ "" ∧ svc.mapOpens o.map = false ∧ e = ⟨"map file open failed", "map"⟩ ∧
                  w = {}) ∨
               (o.output ≠ "" ∧ (o.map ≠ "" → svc.mapOpens o.map = true) ∧
                w.map = (if o.map ≠ "" then
                  some (o.map, mapHeader kernelName ++ svc.symbolsOutput filtered) else none) ∧
                w.cFileRemoved = removesCFile o ∧
                ((svc.openC (cFileName svc o) = .error e ∧ w.cFile = none) ∨
                 (svc.openC (cFileName svc o) = .ok () ∧
                  w.cFile = some (cFileName svc o, generateC filtered o.embed) ∧
                  (svc.execute (symmapArgs svc cc o.output (cFileName svc o))
                      (generateC filtered o.embed) = .error e ∨
                   ∃ status, svc.execute (symmapArgs svc cc o.output (cFileName svc o))
                      (generateC filtered o.embed) = .ok status ∧ status ≠ ⟨true, 0⟩ ∧
                    e = ⟨"Compiler error", "compiling wrapper"⟩))))))))))) := by
  intro kernelSyms svc o e w
  have h : (main svc o).run {} = .error (.rld e) w := rfl
  exact ⟨h, main_rld_error svc o e w h⟩

end RtemsTools.Syms
