import RtemsTools.Syms.Main
import RtemsTools.Syms.Table

/-! # rtems-syms: the options, and the whole run

The `getopt_long` loop at the start of `main`, and the run from a command line to an exit
code. `getopt_long` is not in the source: the model takes what it returns, one `Opt` per
option. The loop sets `main`'s locals and the state of `rld`; of the latter it records what
the rest of the run reads (kept temporaries, the compiler settings), and leaves out the
verbosity, which only changes what is printed. `-V`, `-h` and an option `getopt_long`
rejects end the program inside the loop, through `::exit`. Any other loop returns the settings
of `commandLineSettings`, which reads the command line as a whole: each setting is the last one
given, and the filter expressions accumulate.
-/

namespace RtemsTools.Syms

open Toolchain

/-- What `getopt_long` returns for one option of `rld_opts`, with its `optarg`: `-h`, `-V`,
`-v`, `-w`, `-k`, `-e`, `-S file`, `-o file`, `-m file`, `-C file`, `-E prefix`, `-c cflags`,
`-f file`, `-F re`, and `?` for an option not in `rld_opts` or one without its argument. -/
inductive Opt
  | help
  | version
  | verbose
  | warn
  | keep
  | embed
  | symc (file : String)
  | output (file : String)
  | map (file : String)
  | cc (file : String)
  | execPrefix (dir : String)
  | cflags (flags : String)
  | filter (file : String)
  | filterRe (re : String)
  | unknown
deriving DecidableEq, Repr

/-- What the loop sets: `main`'s locals, and the state of `rld` it changes that a modelled
function reads (kept temporaries, the compiler settings). -/
structure Settings where
  output : String := ""
  map : String := ""
  symc : String := ""
  embed : Bool := false
  filter : SymbolFilter := {}
  keep : Bool := false
  cc : CcState := {}

/-- The services of a run from the command line: those of `main`, and the text of a file,
`none` when `std::ifstream` does not open it. -/
structure Host where
  services : Services
  readFile : String → Option String

/-- One turn of the loop: the settings after the option, or the code `::exit` is called
with (`usage (3)` for `?`, `usage (0)` for `-h`). `-v` only raises the verbosity of what
is printed, and `-w` does nothing. -/
def optionStep (host : Host) (s : Settings) : Opt → Except Nat Settings
  | .version => .error 0
  | .verbose => .ok s
  | .warn => .ok s
  | .keep => .ok { s with keep := true }
  | .embed => .ok { s with embed := true }
  | .output file => .ok { s with output := file }
  | .map file => .ok { s with map := file }
  | .cc file => .ok { s with cc := { s.cc with cc := some file } }
  | .execPrefix dir => .ok { s with cc := { s.cc with execPrefix := some dir } }
  | .cflags flags => .ok { s with cc := { s.cc with cflags := some flags } }
  | .symc file => .ok { s with symc := file }
  -- A file that does not open reads as no words.
  | .filter file => .ok { s with filter := s.filter.load ((host.readFile file).getD "") }
  | .filterRe re => .ok { s with filter := s.filter.add re }
  | .unknown => .error 3
  | .help => .error 0

def Settings.options (s : Settings) (kernels : List String) : Options :=
  ⟨kernels, s.output, s.map, s.symc, s.embed, s.filter, s.keep, s.cc⟩

def finalState {ε σ α : Type} : EStateM.Result ε σ α → σ
  | .ok _ s => s
  | .error _ s => s

structure Outcome where
  code : Nat
  written : Written
deriving DecidableEq, Repr

/-- rtems-syms on a command line: the options as `getopt_long` returns them, then the
arguments after them. -/
def rtemsSyms (host : Host) (opts : List Opt) (args : List String) : Outcome :=
  match opts.foldlM (optionStep host) {} with
  | .error code => ⟨code, {}⟩
  | .ok s =>
    let r := (main host.services (s.options args)).run {}
    ⟨exitCode r, finalState r⟩

/-! ## The loop -/

def Opt.exits : Opt → Bool
  | .help | .version | .unknown => true
  | _ => false

/-- The expressions an option adds to the filter: the one of `-F`, the words of the file of
`-f`, none when it does not open. -/
def Opt.filterExprs (host : Host) : Opt → List String
  | .filter file =>
    match host.readFile file with
    | some text => (text.split SymbolFilter.isSpace).filter (· ≠ "")
    | none => []
  | .filterRe re => [re]
  | _ => []

def lastArg (arg : Opt → Option String) (opts : List Opt) : Option String :=
  (opts.filterMap arg).getLast?

/-- The settings a command line asks for, read as a whole: for each of `-o`, `-m`, `-S`, `-C`,
`-E` and `-c` the last one given, whether `-e` and `-k` are given, and the expressions of `-F`
and `-f` in order. -/
def commandLineSettings (host : Host) (opts : List Opt) : Settings where
  output := (lastArg (fun | .output file => some file | _ => none) opts).getD ""
  map := (lastArg (fun | .map file => some file | _ => none) opts).getD ""
  symc := (lastArg (fun | .symc file => some file | _ => none) opts).getD ""
  embed := decide (.embed ∈ opts)
  filter := ⟨opts.flatMap (Opt.filterExprs host)⟩
  keep := decide (.keep ∈ opts)
  cc := ⟨lastArg (fun | .cc file => some file | _ => none) opts,
    lastArg (fun | .execPrefix dir => some dir | _ => none) opts,
    lastArg (fun | .cflags flags => some flags | _ => none) opts⟩

example (host : Host) :
    (commandLineSettings host [.output "a.o", .map "syms.map", .output "b.o"]).output = "b.o" := rfl

@[simp] theorem lastArg_append_singleton (arg : Opt → Option String) (opts : List Opt) (o : Opt) :
    lastArg arg (opts ++ [o]) = (arg o).or (lastArg arg opts) := by
  cases h : arg o <;> simp [lastArg, h]

theorem SymbolFilter.load_eq (f : SymbolFilter) (text : String) :
    f.load text = ⟨f.expr ++ (text.split SymbolFilter.isSpace).filter (· ≠ "")⟩ :=
  congrArg SymbolFilter.mk (SymbolFilter.foldl_add_expr f _)

@[simp] theorem SymbolFilter.load_empty (f : SymbolFilter) : f.load "" = f := by
  cases f
  simp [SymbolFilter.load, String.split_of_valid]

theorem optionStep_of_exits (host : Host) {o : Opt} (h : o.exits = true) (s : Settings) :
    optionStep host s o = .error (if o = .unknown then 3 else 0) := by
  cases o <;> simp_all [Opt.exits, optionStep]

theorem optionStep_commandLineSettings (host : Host) (opts : List Opt) {o : Opt} (h : o.exits = false) :
    optionStep host (commandLineSettings host opts) o = .ok (commandLineSettings host (opts ++ [o])) := by
  cases o with
  | help | version | unknown => simp [Opt.exits] at h
  | filter file =>
    cases hf : host.readFile file with
    | none => simp [optionStep, commandLineSettings, Opt.filterExprs, hf]
    | some text => simp [optionStep, commandLineSettings, Opt.filterExprs, hf, SymbolFilter.load_eq]
  | _ => simp [optionStep, commandLineSettings, Opt.filterExprs, SymbolFilter.add]

theorem foldlM_optionStep (host : Host) (opts : List Opt) (h : ∀ o ∈ opts, o.exits = false) :
    opts.foldlM (optionStep host) {} = .ok (commandLineSettings host opts) := by
  induction opts using List.reverseRecOn with
  | nil => rfl
  | append_singleton opts o ih =>
    have hopts : ∀ p ∈ opts, p.exits = false := fun p hp => h p (List.mem_append_left _ hp)
    have ho : o.exits = false := h o (List.mem_append_right _ (List.mem_singleton_self o))
    simp only [List.foldlM_append, ih hopts, except_ok_bind, List.foldlM_cons,
      optionStep_commandLineSettings host opts ho, List.foldlM_nil]
    rfl

/-! ## The whole run -/

/-- **A run is `main` on the settings of its command line.** When no option exits, rtems-syms
runs the rest of `main` on the last `-o`, `-m` and `-S` given, with `-e` when it is given, and
on the expressions of `-F` and `-f` in command-line order. It selects the compiler from the last
`-C`, `-E` and `-c` given. So repeating one of these options keeps its last value, and options of
different kinds may come in any order. -/
theorem rtems_syms_settings (host : Host) (opts : List Opt) (args : List String)
    (h : ∀ o ∈ opts, o.exits = false) :
    let s := commandLineSettings host opts
    let r := (main host.services (s.options args)).run {}
    rtemsSyms host opts args = ⟨exitCode r, finalState r⟩ := by
  simp only [rtemsSyms, foldlM_optionStep host opts h]

theorem rtems_syms_settings_example :
    let host : Host := ⟨⟨⟨fun _ => true, fun re text => re == text⟩, fun _ => .ok (.empty, .empty),
      fun _ => .ok "sparc-rtems6", fun _ => true, fun _ => [], "/tmp/rld--1.c", fun _ => .ok (),
      fun _ => ["gcc"], fun _ _ => .ok ⟨true, 0⟩⟩,
      fun file => if file = "syms.flt" then some "foo\n bar.*" else none⟩
    let opts : List Opt := [.output "a.o", .filter "syms.flt", .cc "gcc", .output "syms.o", .embed]
    (∀ o ∈ opts, o.exits = false) ∧
      let s := commandLineSettings host opts
      let r := (main host.services (s.options ["rtems.exe"])).run {}
      rtemsSyms host opts ["rtems.exe"] = ⟨exitCode r, finalState r⟩ := by
  intro host opts
  have h : ∀ o ∈ opts, o.exits = false := by decide
  exact ⟨h, rtems_syms_settings host opts ["rtems.exe"] h⟩

/-- The first option that exits decides the run: an unknown option, or one without its
argument, ends it with 3, and `-h` or `-V` with 0, whatever follows and whatever the
arguments; no kernel is loaded and no file written. -/
theorem rtems_syms_exits_in_loop (host : Host) (pre : List Opt) (o : Opt) (post : List Opt)
    (args : List String) (hpre : ∀ p ∈ pre, p.exits = false) (ho : o.exits = true) :
    rtemsSyms host (pre ++ o :: post) args = ⟨if o = .unknown then 3 else 0, {}⟩ := by
  simp [rtemsSyms, List.foldlM_append, foldlM_optionStep host pre hpre, List.foldlM_cons,
    optionStep_of_exits host ho]

section Object

variable (svc : Services) (o : Options) (cc : CcState) (filtered : Symtab)

theorem outputObject_finalState (w : Written) :
    finalState ((outputObject svc o cc filtered).run w) =
      match svc.openC (cFileName svc o) with
      | .ok () => { w with cFile := some (cFileName svc o, generateC filtered o.embed),
                           cFileRemoved := removesCFile o }
      | .error _ => { w with cFileRemoved := removesCFile o } := by
  rw [outputObject_run]
  rcases svc.openC (cFileName svc o) with e | ⟨⟩
  · rfl
  rcases svc.execute (symmapArgs svc cc o.output (cFileName svc o)) (generateC filtered o.embed)
    with e | status
  · rfl
  · dsimp only
    split_ifs <;> rfl

theorem outputObject_cFile (w : Written) :
    (finalState ((outputObject svc o cc filtered).run w)).cFile =
      match svc.openC (cFileName svc o) with
      | .ok () => some (cFileName svc o, generateC filtered o.embed)
      | .error _ => w.cFile := by
  rw [outputObject_finalState]
  rcases svc.openC (cFileName svc o) with e | ⟨⟩ <;> rfl

theorem outputObject_map (w : Written) :
    (finalState ((outputObject svc o cc filtered).run w)).map = w.map := by
  rw [outputObject_finalState]
  rcases svc.openC (cFileName svc o) with e | ⟨⟩ <;> rfl

theorem outputObject_cFileRemoved (w : Written) :
    (finalState ((outputObject svc o cc filtered).run w)).cFileRemoved = removesCFile o := by
  rw [outputObject_finalState]
  rcases svc.openC (cFileName svc o) with e | ⟨⟩ <;> rfl

theorem exitCode_outputObject (w : Written) (hopen : svc.openC (cFileName svc o) = .ok ()) :
    exitCode ((outputObject svc o cc filtered).run w) =
      match svc.execute (symmapArgs svc cc o.output (cFileName svc o)) (generateC filtered o.embed) with
      | .ok status => if status = ⟨true, 0⟩ then 0 else 10
      | .error _ => 10 := by
  rw [outputObject_run, hopen]
  rcases svc.execute (symmapArgs svc cc o.output (cFileName svc o)) (generateC filtered o.embed)
    with e | status
  · rfl
  · dsimp only
    split_ifs <;> rfl

end Object

theorem writeOutputs_run_of_output (svc : Services) (o : Options) (cc : CcState) (kernelName : String)
    (filtered : Symtab) (w : Written) (ho : o.output ≠ "")
    (hopen : o.map ≠ "" → svc.mapOpens o.map = true) :
    (writeOutputs svc o cc kernelName filtered).run w =
      (outputObject svc o cc filtered).run
        { w with map := if o.map = "" then w.map
                        else some (o.map, mapHeader kernelName ++ svc.symbolsOutput filtered) } := by
  by_cases hm : o.map = ""
  · simp [writeOutputs, hm, ho]
  · simp [writeOutputs, hm, ho, hopen hm]

theorem writeOutputs_of_cFile (svc : Services) (o : Options) (cc : CcState) (kernelName : String)
    (filtered : Symtab) {cName : String} {lines : List String}
    (h : (finalState ((writeOutputs svc o cc kernelName filtered).run {})).cFile = some (cName, lines)) :
    o.output ≠ "" ∧ (o.map ≠ "" → svc.mapOpens o.map = true) ∧ svc.openC (cFileName svc o) = .ok () ∧
      cName = cFileName svc o ∧ lines = generateC filtered o.embed := by
  have hopen : o.map ≠ "" → svc.mapOpens o.map = true := fun hm => by
    by_contra hopen
    simp [writeOutputs, hm, hopen, finalState] at h
  by_cases ho : o.output = ""
  · by_cases hm : o.map = "" <;> simp [writeOutputs, hm, ho, hopen, finalState] at h
  rw [writeOutputs_run_of_output svc o cc kernelName filtered {} ho hopen, outputObject_cFile] at h
  rcases hc : svc.openC (cFileName svc o) with e | ⟨⟩ <;> rw [hc] at h
  · cases h
  · simp only [Option.some.injEq, Prod.mk.injEq] at h
    exact ⟨ho, hopen, rfl, h.1.symm, h.2.symm⟩

/-- A run that writes a C file: its loop returned, one kernel was given, whose symbols loaded,
whose compiler was selected and whose symbols were filtered, and the run ended with the
object's block, after the map file asked for. -/
theorem rtemsSyms_of_cFile (host : Host) (opts : List Opt) (args : List String) {cName : String}
    {lines : List String} (h : (rtemsSyms host opts args).written.cFile = some (cName, lines)) :
    ∃ s kernel globals weaks cc filtered, opts.foldlM (optionStep host) {} = .ok s ∧
      args = [kernel] ∧ host.services.loadSymbols kernel = .ok (globals, weaks) ∧
      selectCc host.services kernel s.cc = .ok cc ∧
      filterSymbols host.services.regex s.filter globals weaks = .ok filtered ∧
      s.output ≠ "" ∧ host.services.openC cName = .ok () ∧
      cName = (if s.symc ≠ "" then s.symc else host.services.tempName) ∧
      lines = generateC filtered s.embed ∧
      rtemsSyms host opts args =
        let r := (outputObject host.services (s.options args) cc filtered).run
          { map := if s.map = "" then none
                   else some (s.map, mapHeader kernel ++ host.services.symbolsOutput filtered) }
        ⟨exitCode r, finalState r⟩ := by
  cases hs : opts.foldlM (optionStep host) {} with
  | error code => simp [rtemsSyms, hs] at h
  | ok s =>
    simp only [rtemsSyms, hs] at h ⊢
    rw [main_run] at h ⊢
    rcases hk : kernelArg (s.options args) with e | k <;> simp only [hk] at h ⊢
    · cases h
    rcases hl : host.services.loadSymbols k with e | ⟨g, wk⟩ <;> simp only [hl] at h ⊢
    · cases h
    rcases hc : selectCc host.services k s.cc with e | cc <;> simp only [Settings.options, hc] at h ⊢
    · cases h
    rcases hf : filterSymbols host.services.regex s.filter g wk with e | fs <;> simp only [hf] at h ⊢
    · cases h
    obtain ⟨ho, hopen, hoc, rfl, rfl⟩ := writeOutputs_of_cFile _ _ _ _ _ h
    refine ⟨s, k, g, wk, cc, fs, rfl, by simpa [Settings.options] using (kernelArg_eq_ok.1 hk).1, hl, hc, hf,
      ho, hoc, rfl, rfl, ?_⟩
    rw [writeOutputs_run_of_output _ _ _ _ _ {} ho hopen]

/-- **The C file of a run, from the command line.** When no option exits and one kernel is
given, whose symbols have names the round trip allows and values that fit a pointer (or, with
`-e`, names the assembler reads as symbols standing for their addresses), any C file the run
writes, whatever the compiler then does, is the file `-S` names, or else the temporary file,
and holds `generate_c` of a non-empty table. That table holds under each name the weak symbol
the command line's filter selects, else the selected global one, with `embed` just when `-e`
is given; and the loader reads it back from the object the file builds to. -/
theorem rtems_syms_c_file (host : Host) (opts : List Opt) (kernel : String) (t : Target)
    (ht : t.Supported) (hopts : ∀ o ∈ opts, o.exits = false)
    (hnames : ∀ globals weaks, host.services.loadSymbols kernel = .ok (globals, weaks) →
      ∀ e ∈ globals.entries ++ weaks.entries, e.2.name ≠ "" ∧
        ∀ c ∈ e.2.name.toList, c ≠ '"' ∧ c ≠ '\\' ∧ c ≠ '\n' ∧ c ≠ '\r' ∧ c ≠ '\x00')
    (hval : Opt.embed ∉ opts → ∀ globals weaks, host.services.loadSymbols kernel = .ok (globals, weaks) →
      ∀ e ∈ globals.entries ++ weaks.entries, e.2.value.toNat < 256 ^ t.pointerSize)
    (hsym : Opt.embed ∈ opts → ∀ globals weaks, host.services.loadSymbols kernel = .ok (globals, weaks) →
      ∀ e ∈ globals.entries ++ weaks.entries, isSymbol e.2.name.toList = true ∧ e.2.name ≠ "." ∧
        (t.x86 = true → e.2.name ≠ "_GLOBAL_OFFSET_TABLE_"))
    (cName : String) (lines : List String)
    (hc : (rtemsSyms host opts [kernel]).written.cFile = some (cName, lines)) :
    cName = (if (commandLineSettings host opts).symc ≠ "" then (commandLineSettings host opts).symc
             else host.services.tempName) ∧
    ∃ globals weaks fs, host.services.loadSymbols kernel = .ok (globals, weaks) ∧ fs.entries ≠ [] ∧
      lines = generateC fs (decide (Opt.embed ∈ opts)) ∧
      (∀ k sym, (k, sym) ∈ fs.entries ↔
        SymbolFilter.Selects host.services.regex ⟨opts.flatMap (Opt.filterExprs host)⟩ sym ∧
        (weaks.find? k = some sym ∨ globals.find? k = some sym ∧
          ∀ w, weaks.find? k = some w →
            ¬ SymbolFilter.Selects host.services.regex ⟨opts.flatMap (Opt.filterExprs host)⟩ w)) ∧
      ∃ rest, readBaseGlobals t lines = .ok (some (fs.entries.map fun e =>
        (e.2.name, if Opt.embed ∈ opts then .ref (.sym e.2.name.toList) else .value e.2.value.toNat),
        sentinel ++ rest)) := by
  obtain ⟨s, k, g, wk, cc, fs, hs, hk, hload, -, hfilt, -, -, hname, rfl, -⟩ :=
    rtemsSyms_of_cFile host opts _ hc
  obtain rfl : s = commandLineSettings host opts :=
    Except.ok.inj (hs.symm.trans (foldlM_optionStep host opts hopts))
  obtain rfl : k = kernel := (List.singleton_inj.1 hk).symm
  obtain ⟨kept, hrun, hkept⟩ := filterSymbols_eq _ _ g wk (compiles_of_filterSymbols_eq_ok _ _ _ _ hfilt)
  rw [hrun] at hfilt
  split_ifs at hfilt with h0
  cases hfilt
  have hsub := mem_entries_of_find? _ _ _ _ hkept
  obtain ⟨rest, hread⟩ := readBaseGlobals_generateC t ht (decide (Opt.embed ∈ opts)) fs
    (fun e he => hnames g wk hload e (hsub e he))
    (fun h e he => hval (by simpa using h) g wk hload e (hsub e he))
    (fun h e he => hsym (by simpa using h) g wk hload e (hsub e he))
  refine ⟨hname, g, wk, fs, hload, fun h => h0 (by simp [StdMap.size, h]), rfl,
    fun k sym => StdMap.mem_entries.trans (hkept k sym), rest, ?_⟩
  simpa using hread

theorem rtems_syms_c_file_example :
    let kernelSyms : Symtab := ⟨[("foo", ⟨"foo", "foo", 0x1234, 2, STB_GLOBAL⟩)], List.pairwise_singleton _ _⟩
    let host : Host := ⟨⟨⟨fun _ => true, fun re text => re == text⟩, fun _ => .ok (kernelSyms, .empty),
      fun _ => .ok "sparc-rtems6", fun _ => true, fun _ => [], "/tmp/rld--1.c", fun _ => .ok (),
      fun _ => ["gcc"], fun _ _ => .ok ⟨true, 0⟩⟩, fun _ => none⟩
    let opts : List Opt := [.output "syms.o"]
    let t : Target := ⟨8, false, false, false, false, false, [0x55, 0xc3]⟩
    t.Supported ∧ (∀ o ∈ opts, o.exits = false) ∧
    (∀ globals weaks, host.services.loadSymbols "rtems.exe" = .ok (globals, weaks) →
      ∀ e ∈ globals.entries ++ weaks.entries, e.2.name ≠ "" ∧
        ∀ c ∈ e.2.name.toList, c ≠ '"' ∧ c ≠ '\\' ∧ c ≠ '\n' ∧ c ≠ '\r' ∧ c ≠ '\x00') ∧
    (Opt.embed ∉ opts → ∀ globals weaks, host.services.loadSymbols "rtems.exe" = .ok (globals, weaks) →
      ∀ e ∈ globals.entries ++ weaks.entries, e.2.value.toNat < 256 ^ t.pointerSize) ∧
    (Opt.embed ∈ opts → ∀ globals weaks, host.services.loadSymbols "rtems.exe" = .ok (globals, weaks) →
      ∀ e ∈ globals.entries ++ weaks.entries, isSymbol e.2.name.toList = true ∧ e.2.name ≠ "." ∧
        (t.x86 = true → e.2.name ≠ "_GLOBAL_OFFSET_TABLE_")) ∧
    (rtemsSyms host opts ["rtems.exe"]).written.cFile = some ("/tmp/rld--1.c", generateC kernelSyms false) ∧
    "/tmp/rld--1.c" = (if (commandLineSettings host opts).symc ≠ "" then (commandLineSettings host opts).symc
      else host.services.tempName) ∧
    ∃ globals weaks fs, host.services.loadSymbols "rtems.exe" = .ok (globals, weaks) ∧ fs.entries ≠ [] ∧
      generateC kernelSyms false = generateC fs (decide (Opt.embed ∈ opts)) ∧
      (∀ k sym, (k, sym) ∈ fs.entries ↔
        SymbolFilter.Selects host.services.regex ⟨opts.flatMap (Opt.filterExprs host)⟩ sym ∧
        (weaks.find? k = some sym ∨ globals.find? k = some sym ∧
          ∀ w, weaks.find? k = some w →
            ¬ SymbolFilter.Selects host.services.regex ⟨opts.flatMap (Opt.filterExprs host)⟩ w)) ∧
      ∃ rest, readBaseGlobals t (generateC kernelSyms false) = .ok (some (fs.entries.map fun e =>
        (e.2.name, if Opt.embed ∈ opts then .ref (.sym e.2.name.toList) else .value e.2.value.toNat),
        sentinel ++ rest)) := by
  intro kernelSyms host opts t
  have ht : t.Supported := ⟨.inr rfl, fun h => absurd h Bool.false_ne_true⟩
  have hload : ∀ g w, host.services.loadSymbols "rtems.exe" = .ok (g, w) → g = kernelSyms ∧ w = .empty :=
    fun g w h => by simpa [host, eq_comm] using h
  have hopts : ∀ o ∈ opts, o.exits = false := by decide
  have hnames : ∀ globals weaks, host.services.loadSymbols "rtems.exe" = .ok (globals, weaks) →
      ∀ e ∈ globals.entries ++ weaks.entries, e.2.name ≠ "" ∧
        ∀ c ∈ e.2.name.toList, c ≠ '"' ∧ c ≠ '\\' ∧ c ≠ '\n' ∧ c ≠ '\r' ∧ c ≠ '\x00' := by
    intro g w h
    obtain ⟨rfl, rfl⟩ := hload g w h
    decide
  have hval : Opt.embed ∉ opts → ∀ globals weaks, host.services.loadSymbols "rtems.exe" = .ok (globals, weaks) →
      ∀ e ∈ globals.entries ++ weaks.entries, e.2.value.toNat < 256 ^ t.pointerSize := by
    intro _ g w h
    obtain ⟨rfl, rfl⟩ := hload g w h
    decide
  have hsym : Opt.embed ∈ opts → ∀ globals weaks, host.services.loadSymbols "rtems.exe" = .ok (globals, weaks) →
      ∀ e ∈ globals.entries ++ weaks.entries, isSymbol e.2.name.toList = true ∧ e.2.name ≠ "." ∧
        (t.x86 = true → e.2.name ≠ "_GLOBAL_OFFSET_TABLE_") := fun h => absurd h (by decide)
  have hc : (rtemsSyms host opts ["rtems.exe"]).written.cFile =
      some ("/tmp/rld--1.c", generateC kernelSyms false) := rfl
  exact ⟨ht, hopts, hnames, hval, hsym, hc,
    rtems_syms_c_file host opts "rtems.exe" t ht hopts hnames hval hsym _ _ hc⟩

/-- **What decides a run that writes the C file.** Once rtems-syms has written its C file,
only the compiler's `execute` can still fail. It runs the compiler that `-C`, `-E` and `-c`
select (with neither `-C` nor `-E`, under the kernel's machine type as exec prefix) with
`-O2 -c -o` and the output, on the C file that `-S` names, or else on the temporary file. It
exits with 0 when the compiler ends normally with 0, and with 10 when it does not or when
`execute` throws. The C file is deleted at the end of the run unless `-S` names it or `-k`
is given. -/
theorem rtems_syms_compiler_decides (host : Host) (opts : List Opt) (args : List String)
    (cName : String) (lines : List String)
    (hc : (rtemsSyms host opts args).written.cFile = some (cName, lines)) :
    ∃ s kernel cc, opts.foldlM (optionStep host) {} = .ok s ∧ args = [kernel] ∧ s.output ≠ "" ∧
      selectCc host.services kernel s.cc = .ok cc ∧
      cName = (if s.symc ≠ "" then s.symc else host.services.tempName) ∧
      (rtemsSyms host opts args).code =
        (match host.services.execute
            (host.services.compilerCommand cc ++ ["-O2", "-c", "-o", s.output, cName]) lines with
          | .ok status => if status = ⟨true, 0⟩ then 0 else 10
          | .error _ => 10) ∧
      (rtemsSyms host opts args).written.cFileRemoved = decide (s.symc = "" ∧ s.keep = false) := by
  obtain ⟨s, k, g, wk, cc, fs, hs, hk, -, hcc, -, ho, hopen, hname, rfl, hrun⟩ :=
    rtemsSyms_of_cFile host opts args hc
  subst hk hname
  rw [hrun]
  exact ⟨s, k, cc, hs, rfl, ho, hcc, rfl, exitCode_outputObject _ _ _ _ _ hopen,
    outputObject_cFileRemoved _ _ _ _ _⟩

theorem rtems_syms_compiler_decides_example :
    let host : Host := ⟨⟨⟨fun _ => true, fun re text => re == text⟩,
      fun _ => .ok (⟨[("foo", ⟨"foo", "foo", 0x1234, 2, STB_GLOBAL⟩)], List.pairwise_singleton _ _⟩, .empty),
      fun _ => .ok "sparc-rtems6", fun _ => true, fun _ => [], "/tmp/rld--1.c", fun _ => .ok (),
      fun c => [c.execPrefix.getD "" ++ "-gcc"], fun _ _ => .ok ⟨true, 1⟩⟩, fun _ => none⟩
    let opts : List Opt := [.output "syms.o", .symc "syms.c"]
    ∃ lines, (rtemsSyms host opts ["rtems.exe"]).written.cFile = some ("syms.c", lines) ∧
      ∃ s kernel cc, opts.foldlM (optionStep host) {} = .ok s ∧ ["rtems.exe"] = [kernel] ∧
        s.output ≠ "" ∧ selectCc host.services kernel s.cc = .ok cc ∧
        "syms.c" = (if s.symc ≠ "" then s.symc else host.services.tempName) ∧
        (rtemsSyms host opts ["rtems.exe"]).code =
          (match host.services.execute
              (host.services.compilerCommand cc ++ ["-O2", "-c", "-o", s.output, "syms.c"]) lines with
            | .ok status => if status = ⟨true, 0⟩ then 0 else 10
            | .error _ => 10) ∧
        (rtemsSyms host opts ["rtems.exe"]).written.cFileRemoved = decide (s.symc = "" ∧ s.keep = false) := by
  intro host opts
  obtain ⟨lines, hc⟩ : ∃ lines, (rtemsSyms host opts ["rtems.exe"]).written.cFile = some ("syms.c", lines) :=
    ⟨_, rfl⟩
  exact ⟨lines, hc, rtems_syms_compiler_decides host opts ["rtems.exe"] "syms.c" lines hc⟩

/-- **The map file lists the C file's symbols.** A run of rtems-syms that writes its C file
has written the map file before it when `-m` names one, and none otherwise. Under the header
that names the kernel, the map lists the same filtered table the C file is generated from. -/
theorem rtems_syms_map_of_c_file (host : Host) (opts : List Opt) (args : List String)
    (cName : String) (lines : List String)
    (hc : (rtemsSyms host opts args).written.cFile = some (cName, lines)) :
    ∃ s kernel filtered, opts.foldlM (optionStep host) {} = .ok s ∧ args = [kernel] ∧
      lines = generateC filtered s.embed ∧
      (rtemsSyms host opts args).written.map =
        if s.map = "" then none
        else some (s.map, mapHeader kernel ++ host.services.symbolsOutput filtered) := by
  obtain ⟨s, k, g, wk, cc, fs, hs, hk, -, -, -, -, -, -, hl, hrun⟩ := rtemsSyms_of_cFile host opts args hc
  rw [hrun]
  exact ⟨s, k, fs, hs, hk, hl, outputObject_map _ _ _ _ _⟩

theorem rtems_syms_map_of_c_file_example :
    let host : Host := ⟨⟨⟨fun _ => true, fun re text => re == text⟩,
      fun _ => .ok (⟨[("foo", ⟨"foo", "foo", 0x1234, 2, STB_GLOBAL⟩)], List.pairwise_singleton _ _⟩, .empty),
      fun _ => .ok "sparc-rtems6", fun _ => true, fun _ => [], "/tmp/rld--1.c", fun _ => .ok (),
      fun _ => ["gcc"], fun _ _ => .ok ⟨true, 0⟩⟩, fun _ => none⟩
    let opts : List Opt := [.map "syms.map", .output "syms.o"]
    ∃ lines, (rtemsSyms host opts ["rtems.exe"]).written.cFile = some ("/tmp/rld--1.c", lines) ∧
      ∃ s kernel filtered, opts.foldlM (optionStep host) {} = .ok s ∧ ["rtems.exe"] = [kernel] ∧
        lines = generateC filtered s.embed ∧
        (rtemsSyms host opts ["rtems.exe"]).written.map =
          if s.map = "" then none
          else some (s.map, mapHeader kernel ++ host.services.symbolsOutput filtered) := by
  intro host opts
  obtain ⟨lines, hc⟩ :
      ∃ lines, (rtemsSyms host opts ["rtems.exe"]).written.cFile = some ("/tmp/rld--1.c", lines) :=
    ⟨_, rfl⟩
  exact ⟨lines, hc, rtems_syms_map_of_c_file host opts ["rtems.exe"] "/tmp/rld--1.c" lines hc⟩

end RtemsTools.Syms
