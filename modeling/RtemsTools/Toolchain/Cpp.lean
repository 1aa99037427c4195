import Mathlib.Data.List.Basic

/-! # The C compiler, as far as the generated symbol file needs it

rtems-syms writes the symbol table as a C file and builds it with the target's compiler.
What the file means is in its basic `asm` statements: the preprocessor keeps the lines of
the `#if` branches that hold for the target, and the compiler hands the string of each
`asm ("...");` statement, its escapes decoded, to the assembler, one statement after
another. After them comes the code of the file's functions, which the model does not follow
(`Target.functionCode`).

Text is a `List Char` here; a character of a C++ `std::string` is one `Char`.
-/

namespace RtemsTools.Toolchain

/-- What the generated file's meaning depends on: `__SIZEOF_POINTER__`; whether `__mips__` is
defined; whether the assembler aligns `.long` and `.quad` to their size until `.align 0`, as
the MIPS and Nios II assemblers do; whether the target is i386 or x86-64, whose assembler takes
`_GLOBAL_OFFSET_TABLE_` relative to the place it is used in; the byte order; whether `.align n`
aligns to `n` bytes rather than to `2 ^ n`; and the bytes the compiler leaves after the last
`asm` statement, in that statement's section (it emits a function into the section it takes
to be current, which after top-level `asm` need not be the assembler's). -/
structure Target where
  pointerSize : Nat
  mips : Bool
  autoAlign : Bool
  x86 : Bool
  bigEndian : Bool
  alignInBytes : Bool
  functionCode : List Nat
deriving DecidableEq, Repr

/-- Where the build stops, with the line it stops at. -/
inductive ToolError
  | cpp (line : List Char)
  | cc (line : List Char)
  | gas (line : List Char)
  | undefinedLabel (name : List Char)
deriving DecidableEq, Repr

def isBlank (c : Char) : Bool := c = ' ' || c = '\t'

def isIdentChar (c : Char) : Bool := c.isAlphanum || c = '_'

def trimLeft (s : List Char) : List Char := s.dropWhile isBlank

/-! ## Lines

The compiler ends a line at a newline, at a carriage return, and at the two together. -/

/-- The file `write_line` leaves: each line, then a newline. -/
def writeLines (lines : List (List Char)) : List Char := lines.flatMap (· ++ ['\n'])

def OneLine (s : List Char) : Prop := '\n' ∉ s ∧ '\r' ∉ s

instance : DecidablePred OneLine := fun _ => inferInstanceAs (Decidable (_ ∧ _))

/-- The lines of a text, `cur` being the start of the current line, reversed. -/
def splitLinesFrom (cur : List Char) : List Char → List (List Char)
  | [] => if cur = [] then [] else [cur.reverse]
  | '\r' :: '\n' :: cs => cur.reverse :: splitLinesFrom [] cs
  | c :: cs =>
    if c = '\n' ∨ c = '\r' then cur.reverse :: splitLinesFrom [] cs else splitLinesFrom (c :: cur) cs

def splitLines (text : List Char) : List (List Char) := splitLinesFrom [] text

theorem splitLinesFrom_append (cur l rest : List Char) (h : OneLine l) :
    splitLinesFrom cur (l ++ '\n' :: rest) = (cur.reverse ++ l) :: splitLinesFrom [] rest := by
  induction l generalizing cur with
  | nil => simp [splitLinesFrom]
  | cons c l ih =>
    simp only [OneLine, List.mem_cons, not_or] at h
    have hc : ¬ (c = '\n' ∨ c = '\r') := fun h' => h'.elim (Ne.symm h.1.1) (Ne.symm h.2.1)
    rw [List.cons_append, splitLinesFrom.eq_3 _ _ _ fun _ hr _ => h.2.1 hr.symm, if_neg hc,
      ih _ ⟨h.1.2, h.2.2⟩]
    simp

theorem splitLines_writeLines (lines : List (List Char)) (h : ∀ l ∈ lines, OneLine l) :
    splitLines (writeLines lines) = lines := by
  induction lines with
  | nil => rfl
  | cons l lines ih =>
    simp only [List.mem_cons, forall_eq_or_imp] at h
    simp only [splitLines, writeLines, List.flatMap_cons, List.append_assoc, List.singleton_append,
      splitLinesFrom_append [] l _ h.1] at ih ⊢
    rw [ih h.2]
    rfl

/-! ## String literals

A string literal's value, read after its opening quote. The state says whether an escape
is pending; a hexadecimal or octal escape ends at the first character that does not
continue it, and that character is then read as usual. The assembler decodes the escapes
of its strings the same way. -/

inductive Escape
  | none
  | start
  | hex (value digits : Nat)
  | octal (value digits : Nat)

def hexDigit? (c : Char) : Option Nat :=
  if c.isDigit then some (c.toNat - '0'.toNat)
  else if 'a' ≤ c ∧ c ≤ 'f' then some (c.toNat - 'a'.toNat + 10)
  else if 'A' ≤ c ∧ c ≤ 'F' then some (c.toNat - 'A'.toNat + 10)
  else none

def isOctDigit (c : Char) : Bool := '0' ≤ c && c ≤ '7'

def simpleEscape? (c : Char) : Option Char :=
  if c = 'n' then some '\n' else if c = 't' then some '\t' else if c = 'r' then some '\r'
  else if c = 'a' then some '\x07' else if c = 'b' then some '\x08'
  else if c = 'f' then some '\x0c' else if c = 'v' then some '\x0b'
  else if c = '"' ∨ c = '\'' ∨ c = '?' ∨ c = '\\' then some c else none

/-- One character of a literal: the escape state after it and the value read so far
(reversed), `some none` at the closing quote, or `none` where the literal is ill formed. -/
def plainStep (acc : List Char) (c : Char) : Option (Option (Escape × List Char)) :=
  if c = '"' then some none
  else if c = '\\' then some (some (.start, acc))
  else if c = '\n' then none
  else some (some (.none, c :: acc))

def escapeStep : Escape → List Char → Char → Option (Option (Escape × List Char))
  | .none, acc, c => plainStep acc c
  | .start, acc, c =>
    if c = 'x' then some (some (.hex 0 0, acc))
    else if isOctDigit c then some (some (.octal (c.toNat - '0'.toNat) 1, acc))
    else (simpleEscape? c).map fun e => some (.none, e :: acc)
  | .hex v n, acc, c =>
    match hexDigit? c with
    | some d => some (some (.hex (16 * v + d) (n + 1), acc))
    | none => if n = 0 then none else plainStep (Char.ofNat v :: acc) c
  | .octal v n, acc, c =>
    if n < 3 ∧ isOctDigit c then some (some (.octal (8 * v + (c.toNat - '0'.toNat)) (n + 1), acc))
    else plainStep (Char.ofNat v :: acc) c

/-- The literal's value and the text after its closing quote. -/
def stringFrom (e : Escape) (acc : List Char) : List Char → Option (List Char × List Char)
  | [] => none
  | c :: rest =>
    match escapeStep e acc c with
    | some (some (e', acc')) => stringFrom e' acc' rest
    | some none => some (acc.reverse, rest)
    | none => none

/-- Text that a literal holds as it is, on one line: no quote, backslash or line break. -/
def Plain (s : List Char) : Prop := ∀ c ∈ s, c ≠ '"' ∧ c ≠ '\\' ∧ c ≠ '\n' ∧ c ≠ '\r'

theorem Plain.oneLine {s : List Char} (h : Plain s) : OneLine s :=
  ⟨fun hs => (h _ hs).2.2.1 rfl, fun hs => (h _ hs).2.2.2 rfl⟩

theorem stringFrom_plain {s : List Char} (h : Plain s) (acc rest : List Char) :
    stringFrom .none acc (s ++ rest) = stringFrom .none (s.reverse ++ acc) rest := by
  induction s generalizing acc with
  | nil => rfl
  | cons c s ih =>
    obtain ⟨h₁, h₂, h₃, -⟩ := h c (List.mem_cons_self _ _)
    simp only [List.cons_append, stringFrom, escapeStep, plainStep, h₁, h₂, h₃, if_false,
      List.append_eq]
    rw [ih fun c hc => h c (List.mem_cons_of_mem _ hc)]
    simp

/-! ## The preprocessor -/

/-- An open `#if`: whether the text around it is kept, its condition, and whether its
`#else` has been read. -/
structure Frame where
  outer : Bool
  cond : Bool
  inElse : Bool

def active : List Frame → Bool
  | [] => true
  | f :: _ => f.outer && (f.cond != f.inElse)

def directive? (line : List Char) : Option (List Char × List Char) :=
  match trimLeft line with
  | '#' :: rest =>
    let rest := trimLeft rest
    some (rest.takeWhile isIdentChar, trimLeft (rest.dropWhile isIdentChar))
  | _ => none

/-- The macros the generated file tests; a name that is no macro counts as 0. -/
def macroValue (t : Target) (name : List Char) : Nat :=
  if name = "__SIZEOF_POINTER__".toList then t.pointerSize
  else if name = "__mips__".toList then (if t.mips then 1 else 0)
  else 0

def decimal (ds : List Char) : Nat := ds.foldl (fun n c => 10 * n + (c.toNat - '0'.toNat)) 0

def condWord? (t : Target) (w : List Char) : Option Nat :=
  if w ≠ [] ∧ w.all Char.isDigit then some (decimal w)
  else if w ≠ [] ∧ w.all isIdentChar then some (macroValue t w)
  else none

/-- The conditions `#if NAME` and `#if NAME == NUMBER`. -/
def evalCond (t : Target) (cond : List Char) : Option Bool :=
  match (cond.splitOnP isBlank).filter (· ≠ []) with
  | [w] => (condWord? t w).map (· != 0)
  | [w, ['=', '='], v] => do return (← condWord? t w) == (← condWord? t v)
  | _ => none

/-- What a line does: the open `#if`s after it, and whether the line is kept. -/
def ppLine (t : Target) (frames : List Frame) (line : List Char) :
    Except ToolError (List Frame × Bool) :=
  match directive? line with
  | none => .ok (frames, active frames)
  | some (name, arg) =>
    if name = "if".toList then
      if active frames then
        match evalCond t arg with
        | some c => .ok (⟨true, c, false⟩ :: frames, false)
        | none => .error (.cpp line)
      else .ok (⟨false, false, false⟩ :: frames, false)
    else if name = "else".toList then
      match frames with
      | f :: fs => if f.inElse then .error (.cpp line) else .ok ({ f with inElse := true } :: fs, false)
      | [] => .error (.cpp line)
    else if name = "endif".toList then
      match frames with
      | _ :: fs => .ok (fs, false)
      | [] => .error (.cpp line)
    else if active frames then .error (.cpp line) else .ok (frames, false)

def ppStep (t : Target) (s : List Frame × List (List Char)) (line : List Char) :
    Except ToolError (List Frame × List (List Char)) :=
  (ppLine t s.1 line).map fun r => (r.1, if r.2 then s.2 ++ [line] else s.2)

def preprocess (t : Target) (lines : List (List Char)) : Except ToolError (List (List Char)) := do
  let s ← lines.foldlM (ppStep t) ([], [])
  if s.1.isEmpty then pure s.2 else throw (.cpp [])

theorem ppStep_text {t : Target} {line : List Char} (h : directive? line = none) (frames out) :
    ppStep t (frames, out) line = pure (frames, if active frames then out ++ [line] else out) := by
  simp only [ppStep, ppLine, h]
  rfl

theorem foldlM_ppStep (t : Target) (lines : List (List Char)) (fs : List Frame) (out) :
    lines.foldlM (ppStep t) (fs, out) =
      (fun r => (r.1, out ++ r.2)) <$> lines.foldlM (ppStep t) (fs, []) := by
  induction lines generalizing fs out with
  | nil => simp
  | cons l lines ih =>
    simp only [List.foldlM_cons, ppStep]
    cases ppLine t fs l with
    | error e => rfl
    | ok r =>
      show lines.foldlM _ _ = _ <$> lines.foldlM _ _
      rw [ih _ (if r.2 then out ++ [l] else out), ih _ (if r.2 then [] ++ [l] else [])]
      cases r.2 <;> simp [Functor.map_map]

/-! ## `asm` statements -/

def expect (c : Char) (s : List Char) : Option (List Char) :=
  match trimLeft s with
  | c' :: rest => if c' = c then some rest else none
  | [] => none

/-- The string of a line `asm ("...");`, or `none` for a line that is no `asm` statement. -/
def asmStatement? (line : List Char) : Except ToolError (Option (List Char)) :=
  match (trimLeft line).dropPrefix? "asm".toList with
  | some rest =>
    if (rest.head?.map isIdentChar).getD false then .ok none
    else
      match ((expect '(' rest).bind (expect '"')).bind (stringFrom .none []) with
      | some (s, after) =>
        if after.filter (fun c => !isBlank c) = [')', ';'] then .ok (some s) else .error (.cc line)
      | none => .error (.cc line)
  | none => .ok none

def asmStatements (lines : List (List Char)) : Except ToolError (List (List Char)) :=
  List.reduceOption <$> lines.mapM asmStatement?

/-- The assembler's input: each statement's string on its own line. -/
def compileC (t : Target) (file : List Char) : Except ToolError (List Char) := do
  let lines ← preprocess t (splitLines file)
  let stmts ← asmStatements lines
  pure (writeLines stmts)

theorem asmStatement?_of_stringFrom {body v after : List Char}
    (h : stringFrom .none [] body = some (v, after))
    (hafter : after.filter (fun c => !isBlank c) = [')', ';']) :
    asmStatement? ("asm(\"".toList ++ body) = .ok (some v) := by
  have hpre : (trimLeft ("asm(\"".toList ++ body)).dropPrefix? "asm".toList =
      some ("(\"".toList ++ body) := rfl
  have hopen : (expect '(' ("(\"".toList ++ body)).bind (expect '"') = some body := rfl
  simp only [asmStatement?, hpre, hopen, Option.some_bind, h, hafter]
  rfl

/-- An `asm` statement whose string is plain text between fixed escaped parts. -/
theorem asmStatement?_plain {pre s post : List Char} (v₁ v₂ : List Char) (h : Plain s)
    (hpre : ∀ acc rest, stringFrom .none acc (pre ++ rest) = stringFrom .none (v₁.reverse ++ acc) rest)
    (hpost : ∀ acc, stringFrom .none acc post = some ((v₂.reverse ++ acc).reverse, [')', ';'])) :
    asmStatement? ("asm(\"".toList ++ (pre ++ (s ++ post))) = .ok (some (v₁ ++ s ++ v₂)) := by
  refine asmStatement?_of_stringFrom ?_ (rfl : [')', ';'].filter (fun c => !isBlank c) = _)
  rw [hpre, stringFrom_plain h, hpost]
  simp

end RtemsTools.Toolchain
