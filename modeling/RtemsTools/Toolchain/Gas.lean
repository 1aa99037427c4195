import RtemsTools.Toolchain.Cpp
import Mathlib.Data.List.ReduceOption
import Mathlib.Data.Nat.Digits

/-! # The assembler, as far as the generated symbol file needs it

The statements the generated file hands the assembler: labels and the directives
`.section`, `.local`, `.type`, `.align`, `.balign`, `.ascii`, `.asciz`, `.byte`, `.long` and
`.quad`. Everything goes into one section. A data directive whose operand is a number
emits its bytes in the target's byte order; one whose operand names a symbol leaves a
field for the linker. The MIPS and Nios II assemblers align `.long` and `.quad` to their
size until `.align 0` turns that off; the generated header has `.align 0` under `__mips__`
only.
-/

namespace RtemsTools.Toolchain

/-- An operand: a number, a symbol, the location counter `.`, or the difference of two. -/
inductive Expr
  | num (n : Nat)
  | sym (name : List Char)
  | dot
  | sub (a b : Expr)
deriving DecidableEq, Repr

/-- What the assembler puts in the section: a byte, or a field of `size` bytes filled
later with the value of an expression over symbols. -/
inductive Datum
  | byte (b : Nat)
  | field (e : Expr) (size : Nat)
deriving DecidableEq, Repr

def Datum.size : Datum → Nat
  | .byte _ => 1
  | .field _ n => n

/-- The section being assembled: its data, each label with the number of data before it, and
whether an assembler that aligns data directives by itself still does. -/
structure Section where
  data : List Datum := []
  labels : List (List Char × Nat) := []
  autoAlign : Bool := true
deriving DecidableEq, Repr

/-! ## Numbers and bytes -/

def leBytes : Nat → Nat → List Nat
  | 0, _ => []
  | k + 1, n => n % 256 :: leBytes k (n / 256)

def wordBytes (bigEndian : Bool) (size n : Nat) : List Nat :=
  if bigEndian then (leBytes size n).reverse else leBytes size n

@[simp] theorem length_leBytes (k n : Nat) : (leBytes k n).length = k := by
  induction k generalizing n <;> simp [leBytes, *]

@[simp] theorem length_wordBytes (bigEndian : Bool) (k n : Nat) : (wordBytes bigEndian k n).length = k := by
  unfold wordBytes; split_ifs <;> simp

def digitsValue (base : Nat) (ds : List Nat) : Nat := ds.foldl (fun n d => base * n + d) 0

def hexNumber? (ds : List Char) : Option Nat :=
  if ds = [] then none else (ds.mapM hexDigit?).map (digitsValue 16)

/-- A number: `0x` and hexadecimal digits, `0` and octal digits, or decimal digits. -/
def number? : List Char → Option Nat
  | '0' :: x :: ds =>
    if x = 'x' ∨ x = 'X' then hexNumber? ds
    else if (x :: ds).all isOctDigit then some (digitsValue 8 ((x :: ds).map (·.toNat - '0'.toNat)))
    else none
  | ds => if ds ≠ [] ∧ ds.all Char.isDigit then some (decimal ds) else none

def isSymbolChar (c : Char) : Bool := c.isAlphanum || c = '_' || c = '.' || c = '$'

/-- A name the assembler reads as a symbol: symbol characters, not starting with a digit. -/
def isSymbol : List Char → Bool
  | c :: cs => !c.isDigit && (c :: cs).all isSymbolChar
  | [] => false

def trim (s : List Char) : List Char := (trimLeft (trimLeft s).reverse).reverse

/-- What a symbol stands for as an operand: `.` is the location counter, and on x86 a
reference to `_GLOBAL_OFFSET_TABLE_` is taken relative to the place it is in; any other
symbol stands for its address. -/
def symbolOperand (t : Target) (w : List Char) : Expr :=
  if w = ['.'] then .dot
  else if w = "_GLOBAL_OFFSET_TABLE_".toList ∧ t.x86 then .sub (.sym w) .dot
  else .sym w

def operand? (t : Target) (w : List Char) : Option Expr :=
  if isSymbol w then some (symbolOperand t w) else (number? w).map .num

def expr? (t : Target) (args : List Char) : Option Expr :=
  match (args.splitOnP (· = '-')).map trim with
  | [w] => operand? t w
  | [a, b] => do return .sub (← operand? t a) (← operand? t b)
  | _ => none

/-! ## Statements -/

namespace Section

def offset (a : Section) : Nat := (a.data.map Datum.size).sum

def emit (a : Section) (ds : List Datum) : Section := { a with data := a.data ++ ds }

def alignTo (a : Section) (b : Nat) : Section :=
  a.emit (List.replicate ((b - a.offset % b) % b) (.byte 0))

def emitData (t : Target) (size : Nat) (a : Section) (e : Expr) : Section :=
  let a := if t.autoAlign && a.autoAlign then a.alignTo size else a
  match e with
  | .num n => a.emit ((wordBytes t.bigEndian size n).map .byte)
  | e => a.emit [.field e size]

def dataAfter (a : Section) (label : List Char) : Except ToolError (List Datum) :=
  match a.labels.find? (·.1 = label) with
  | some (_, i) => .ok (a.data.drop i)
  | none => .error (.undefinedLabel label)

/-- The address of a label, in bytes from the start of the section: the sizes of the data
before it. -/
def labelAddress (a : Section) (label : List Char) : Option Nat :=
  (a.labels.find? (·.1 = label)).map fun l => ((a.data.take l.2).map Datum.size).sum

/-- The value the assembler gives an expression by itself: a number, or the difference of
two labels of the section. The address of a symbol alone is left to the linker. -/
def value (a : Section) : Expr → Option Int
  | .num n => some n
  | .sub (.sym x) (.sym y) =>
    (a.labelAddress x).bind fun ax => (a.labelAddress y).map fun ay => (ax : Int) - ay
  | _ => none

end Section

/-- The section after a directive, or `none` for one the assembler rejects. -/
def directive (t : Target) (a : Section) (name args : List Char) : Option Section :=
  if name = "section".toList ∨ name = "local".toList ∨ name = "globl".toList ∨
      name = "type".toList ∨ name = "size".toList then some a
  else if name = "align".toList then
    (number? (trim args)).map fun n =>
      let a := a.alignTo (if t.alignInBytes then n else 2 ^ n)
      if n = 0 ∧ t.autoAlign then { a with autoAlign := false } else a
  else if name = "balign".toList then (number? (trim args)).map a.alignTo
  else if name = "ascii".toList ∨ name = "asciz".toList then
    match args with
    | '"' :: rest =>
      (stringFrom .none [] rest).bind fun (s, after) =>
        if trimLeft after = [] then
          some (a.emit (s.map (.byte ·.toNat) ++ if name = "asciz".toList then [.byte 0] else []))
        else none
    | _ => none
  else if name = "byte".toList then (expr? t args).map (a.emitData t 1)
  else if name = "long".toList then (expr? t args).map (a.emitData t 4)
  else if name = "quad".toList then (expr? t args).map (a.emitData t 8)
  else none

def label? (s : List Char) : Option (List Char) :=
  match trimLeft (s.dropWhile isSymbolChar) with
  | ':' :: rest =>
    let name := s.takeWhile isSymbolChar
    if isSymbol name ∧ trimLeft rest = [] then some name else none
  | _ => none

def gasLine (t : Target) (a : Section) (line : List Char) : Except ToolError Section :=
  let s := trimLeft line
  match label? s with
  | some l =>
    if a.labels.any (·.1 = l) then .error (.gas line)
    else .ok { a with labels := a.labels ++ [(l, a.data.length)] }
  | none =>
    match s with
    | [] => .ok a
    | '.' :: rest =>
      match directive t a (rest.takeWhile isSymbolChar) (trimLeft (rest.dropWhile isSymbolChar)) with
      | some a' => .ok a'
      | none => .error (.gas line)
    | _ => .error (.gas line)

def assemble (t : Target) (text : List Char) : Except ToolError Section :=
  (splitLines text).foldlM (gasLine t) {}

/-- The section of the object a C file builds to: what its `asm` statements assemble to, then
the code the compiler leaves after them. -/
def build (t : Target) (file : List Char) : Except ToolError Section := do
  let sec ← assemble t (← compileC t file)
  pure (sec.emit (t.functionCode.map .byte))

def objectData (t : Target) (file label : List Char) : Except ToolError (List Datum) := do
  (← build t file).dataAfter label

/-! ## Statements of the generated file -/

theorem trimLeft_of_forall {s : List Char} (h : ∀ c ∈ s, isBlank c = false) : trimLeft s = s := by
  cases s with
  | nil => rfl
  | cons c s => simp [trimLeft, List.dropWhile_cons, h c (List.mem_cons_self _ _)]

theorem trim_of_forall {s : List Char} (h : ∀ c ∈ s, isBlank c = false) : trim s = s := by
  rw [trim, trimLeft_of_forall h, trimLeft_of_forall (by simpa using h), List.reverse_reverse]

theorem expr?_operand (t : Target) {w : List Char} (h : ∀ c ∈ w, c ≠ '-' ∧ isBlank c = false) :
    expr? t w = operand? t w := by
  rw [expr?, List.splitOnP_eq_single _ _ fun c hc => by simpa using (h c hc).1]
  simp [trim_of_forall fun c hc => (h c hc).2]

theorem isSymbolChar_ne {c : Char} (h : isSymbolChar c = true) :
    c ≠ '-' ∧ isBlank c = false ∧ c ≠ ':' := by
  refine ⟨?_, ?_, ?_⟩
  · rintro rfl; exact absurd h (by decide)
  · cases hb : isBlank c
    · rfl
    · simp only [isBlank, Bool.or_eq_true, decide_eq_true_eq] at hb
      rcases hb with rfl | rfl <;> exact absurd h (by decide)
  · rintro rfl; exact absurd h (by decide)

theorem isSymbol_eq_cons {w : List Char} (h : isSymbol w = true) :
    ∃ c cs, w = c :: cs ∧ isSymbolChar c = true := by
  cases w with
  | nil => simp [isSymbol] at h
  | cons c cs =>
    simp only [isSymbol, Bool.and_eq_true, List.all_eq_true] at h
    exact ⟨c, cs, rfl, h.2 c (List.mem_cons_self _ _)⟩

theorem expr?_symbol (t : Target) {w : List Char} (h : isSymbol w = true) :
    expr? t w = some (symbolOperand t w) := by
  have hall : ∀ c ∈ w, isSymbolChar c = true := by
    cases w with
    | nil => simp [isSymbol] at h
    | cons c cs =>
      simp only [isSymbol, Bool.and_eq_true, List.all_eq_true] at h
      exact h.2
  rw [expr?_operand t fun c hc => ⟨(isSymbolChar_ne (hall c hc)).1, (isSymbolChar_ne (hall c hc)).2.1⟩]
  simp [operand?, h]

theorem gasLine_asciz (t : Target) (a : Section) {s : List Char} (h : Plain s) :
    gasLine t a ("  .asciz \"".toList ++ (s ++ ['"'])) =
      .ok (a.emit (s.map (.byte ·.toNat) ++ [.byte 0])) := by
  have hs : stringFrom .none [] (s ++ ['"']) = some (s, []) := by
    rw [stringFrom_plain h]; simp [stringFrom, escapeStep, plainStep]
  have hd : directive t a "asciz".toList ('"' :: (s ++ ['"'])) =
      (stringFrom .none [] (s ++ ['"'])).bind fun r =>
        if trimLeft r.2 = [] then some (a.emit (r.1.map (.byte ·.toNat) ++ [.byte 0])) else none := rfl
  have hl : gasLine t a ("  .asciz \"".toList ++ (s ++ ['"'])) =
      match directive t a "asciz".toList ('"' :: (s ++ ['"'])) with
      | some a' => .ok a'
      | none => .error (.gas ("  .asciz \"".toList ++ (s ++ ['"']))) := rfl
  rw [hl, hd, hs]
  rfl

end RtemsTools.Toolchain

namespace RtemsTools.Toolchain

theorem label?_eq_none {s rest : List Char} {c : Char} (hs : trimLeft (s.dropWhile isSymbolChar) = c :: rest)
    (hc : c ≠ ':') : label? s = none := by
  simp only [label?, hs]
  split
  · simp_all
  · rfl

theorem gasLine_dot (t : Target) (a : Section) {line s : List Char} (hs : trimLeft line = '.' :: s)
    (hl : label? ('.' :: s) = none) :
    gasLine t a line =
      match directive t a (s.takeWhile isSymbolChar) (trimLeft (s.dropWhile isSymbolChar)) with
      | some a' => .ok a'
      | none => .error (.gas line) := by
  simp only [gasLine, hs, hl]

theorem gasLine_data (t : Target) (a : Section) {c : Char} {args : List Char}
    (hc : isBlank c = false) (hc' : c ≠ ':') {e : Expr} (he : expr? t (c :: args) = some e) :
    gasLine t a ("  .quad ".toList ++ c :: args) = .ok (a.emitData t 8 e) ∧
    gasLine t a ("  .long ".toList ++ c :: args) = .ok (a.emitData t 4 e) := by
  have hhead : trimLeft (c :: args) = c :: args := by simp [trimLeft, List.dropWhile_cons, hc]
  constructor
  · rw [gasLine_dot t a (rfl : trimLeft ("  .quad ".toList ++ c :: args) = _) (label?_eq_none hhead hc')]
    show (match directive t a "quad".toList (trimLeft (c :: args)) with
      | some a' => Except.ok a' | none => Except.error _) = _
    rw [hhead]
    show (match (expr? t (c :: args)).map (a.emitData t 8) with | some a' => _ | none => _) = _
    rw [he]; rfl
  · rw [gasLine_dot t a (rfl : trimLeft ("  .long ".toList ++ c :: args) = _) (label?_eq_none hhead hc')]
    show (match directive t a "long".toList (trimLeft (c :: args)) with
      | some a' => Except.ok a' | none => Except.error _) = _
    rw [hhead]
    show (match (expr? t (c :: args)).map (a.emitData t 4) with | some a' => _ | none => _) = _
    rw [he]; rfl

theorem gasLine_type (t : Target) (a : Section) (s : List Char) :
    gasLine t a ("  .type \"".toList ++ (s ++ "\", %tls_object".toList)) = .ok a := rfl

namespace Section

@[simp] theorem emit_data (a : Section) (ds) : (a.emit ds).data = a.data ++ ds := rfl

@[simp] theorem emit_labels (a : Section) (ds) : (a.emit ds).labels = a.labels := rfl

@[simp] theorem emit_autoAlign (a : Section) (ds) : (a.emit ds).autoAlign = a.autoAlign := rfl

@[simp] theorem emit_nil (a : Section) : a.emit [] = a := by simp [emit]

@[simp] theorem emit_emit (a : Section) (ds ds') : (a.emit ds).emit ds' = a.emit (ds ++ ds') := by
  simp [emit]

@[simp] theorem alignTo_labels (a : Section) (b) : (a.alignTo b).labels = a.labels := rfl

@[simp] theorem offset_emit (a : Section) (ds : List Datum) :
    (a.emit ds).offset = a.offset + (ds.map Datum.size).sum := by
  simp [offset, emit]

@[simp] theorem offset_alignTo (a : Section) (b : Nat) :
    (a.alignTo b).offset = a.offset + (b - a.offset % b) % b := by
  simp [alignTo, Datum.size]

@[simp] theorem alignTo_autoAlign (a : Section) (b) : (a.alignTo b).autoAlign = a.autoAlign := rfl

@[simp] theorem emitData_labels (t : Target) (size) (a : Section) (e) :
    (a.emitData t size e).labels = a.labels := by
  unfold emitData; cases e <;> split <;> rfl

@[simp] theorem emitData_autoAlign (t : Target) (size) (a : Section) (e) :
    (a.emitData t size e).autoAlign = a.autoAlign := by
  unfold emitData; cases e <;> split <;> rfl

theorem alignTo_of_offset_eq_zero {a : Section} (h : a.offset = 0) (b : Nat) : a.alignTo b = a := by
  simp [alignTo, h]

theorem emitData_packed {t : Target} {a : Section} (h : (t.autoAlign && a.autoAlign) = false)
    (size : Nat) (e : Expr) :
    a.emitData t size e =
      match e with
      | .num n => a.emit ((wordBytes t.bigEndian size n).map .byte)
      | e => a.emit [.field e size] := by
  simp only [emitData, h, Bool.false_eq_true, if_false]

theorem emitData_field {t : Target} {a : Section} (h : (t.autoAlign && a.autoAlign) = false)
    (size : Nat) {e : Expr} (he : ∀ n, e ≠ .num n) : a.emitData t size e = a.emit [.field e size] := by
  rw [emitData_packed h]
  cases e
  · exact absurd rfl (he _)
  all_goals rfl

end Section

theorem symbolOperand_ne_num (t : Target) (w : List Char) (n : Nat) : symbolOperand t w ≠ .num n := by
  unfold symbolOperand
  split_ifs <;> simp

theorem symbolOperand_sym (t : Target) {w : List Char} (hdot : w ≠ ['.'])
    (hgot : t.x86 = true → w ≠ "_GLOBAL_OFFSET_TABLE_".toList) : symbolOperand t w = .sym w := by
  rw [symbolOperand, if_neg hdot, if_neg fun h => hgot h.2 h.1]

/-! ## A file, part by part -/

/-- A part of the file, from the preprocessor's top level back to it: the compiler hands
the assembler the strings of the `asm` statements it keeps, and these take the section
from `a` to `a'`. -/
def Builds (t : Target) (X : List (List Char)) (a a' : Section) : Prop :=
  ∃ kept os, X.foldlM (ppStep t) ([], []) = .ok ([], kept) ∧ kept.mapM asmStatement? = .ok os ∧
    (∀ s ∈ os.reduceOption, OneLine s) ∧ os.reduceOption.foldlM (gasLine t) a = .ok a'

namespace Builds

variable {t : Target}

theorem nil (a : Section) : Builds t [] a a := ⟨[], [], rfl, rfl, by simp, rfl⟩

theorem append {X Y : List (List Char)} {a b c : Section} (hX : Builds t X a b)
    (hY : Builds t Y b c) : Builds t (X ++ Y) a c := by
  obtain ⟨kX, oX, hpX, haX, hnX, hgX⟩ := hX
  obtain ⟨kY, oY, hpY, haY, hnY, hgY⟩ := hY
  refine ⟨kX ++ kY, oX ++ oY, ?_, ?_, ?_, ?_⟩
  · rw [List.foldlM_append, hpX]
    show Y.foldlM (ppStep t) ([], kX) = _
    rw [foldlM_ppStep, hpY]
    rfl
  · rw [List.mapM_append, haX, haY]
    rfl
  · simp only [List.reduceOption_append, List.mem_append]
    rintro s (hs | hs)
    exacts [hnX s hs, hnY s hs]
  · rw [List.reduceOption_append, List.foldlM_append, hgX]
    exact hgY

theorem foldlM_ppStep_text {X : List (List Char)} (hd : ∀ l ∈ X, directive? l = none) :
    X.foldlM (ppStep t) ([], []) = .ok ([], X) := by
  induction X with
  | nil => rfl
  | cons l X ih =>
    simp only [List.mem_cons, forall_eq_or_imp] at hd
    simp only [List.foldlM_cons, ppStep_text hd.1, active, if_true, List.nil_append, pure_bind]
    rw [foldlM_ppStep, ih hd.2]
    rfl

theorem ofText {X : List (List Char)} {os : List (Option (List Char))} {a a' : Section}
    (hd : ∀ l ∈ X, directive? l = none) (ha : X.mapM asmStatement? = .ok os)
    (hn : ∀ s ∈ os.reduceOption, OneLine s) (hg : os.reduceOption.foldlM (gasLine t) a = .ok a') :
    Builds t X a a' :=
  ⟨X, os, foldlM_ppStep_text hd, ha, hn, hg⟩

theorem stmt {l s : List Char} {a a' : Section} (hd : directive? l = none)
    (hs : asmStatement? l = .ok (some s)) (hn : OneLine s) (hg : gasLine t a s = .ok a') :
    Builds t [l] a a' :=
  ofText (by simpa using hd) (by simp only [List.mapM_cons, List.mapM_nil, hs]; rfl)
    (by simpa using hn) (by simpa using hg)

theorem text {l : List Char} (a : Section) (hd : directive? l = none)
    (hs : asmStatement? l = .ok none) : Builds t [l] a a :=
  ofText (by simpa using hd)
    (show [l].mapM asmStatement? = .ok [none] by simp only [List.mapM_cons, List.mapM_nil, hs]; rfl)
    (by simp) rfl

theorem of_kept {X : List (List Char)} {l : List Char} {a a' : Section} (hd : directive? l = none)
    (hX : X.foldlM (ppStep t) ([], []) = .ok ([], [l])) (h : Builds t [l] a a') : Builds t X a a' := by
  obtain ⟨k, o, hp, ha, hn, hg⟩ := h
  obtain rfl : k = [l] := by simpa [foldlM_ppStep_text (X := [l]) (by simpa using hd)] using hp.symm
  exact ⟨[l], o, hX, ha, hn, hg⟩

/-- `#if`, a line, `#else`, another line, `#endif`: what the line the condition picks builds to. -/
theorem ifElse {l l₁ l₂ : List Char} {c : Bool} {a a₁ a₂ : Section}
    (hif : ppStep t ([], []) l = pure ([⟨true, c, false⟩], [])) (hd₁ : directive? l₁ = none)
    (hd₂ : directive? l₂ = none) (h₁ : Builds t [l₁] a a₁) (h₂ : Builds t [l₂] a a₂) :
    Builds t [l, l₁, "#else".toList, l₂, "#endif".toList] a (if c then a₁ else a₂) := by
  have helse : ∀ c k, ppStep t ([⟨true, c, false⟩], k) "#else".toList =
      pure ([⟨true, c, true⟩], k) := fun _ _ => rfl
  have hendif : ∀ c k, ppStep t ([⟨true, c, true⟩], k) "#endif".toList = pure ([], k) :=
    fun _ _ => rfl
  have hpp : [l, l₁, "#else".toList, l₂, "#endif".toList].foldlM (ppStep t) ([], []) =
      .ok ([], if c then [l₁] else [l₂]) := by
    simp only [List.foldlM_cons, List.foldlM_nil, hif, ppStep_text hd₁, ppStep_text hd₂, helse,
      hendif, pure_bind]
    cases c <;> simp [active] <;> rfl
  cases c
  · exact of_kept hd₂ (by rw [hpp]; rfl) h₂
  · exact of_kept hd₁ (by rw [hpp]; rfl) h₁

theorem pointerSize {l₈ l₄ : List Char} {a a₈ a₄ : Section} (hd₈ : directive? l₈ = none)
    (hd₄ : directive? l₄ = none) (h₈ : Builds t [l₈] a a₈) (h₄ : Builds t [l₄] a a₄) :
    Builds t ["#if __SIZEOF_POINTER__ == 8".toList, l₈, "#else".toList, l₄, "#endif".toList] a
      (if t.pointerSize = 8 then a₈ else a₄) := by
  simpa using
    ifElse (l := "#if __SIZEOF_POINTER__ == 8".toList) (c := t.pointerSize == 8) rfl hd₈ hd₄ h₈ h₄

theorem mips {l₁ l₂ : List Char} {a a₁ a₂ : Section} (hd₁ : directive? l₁ = none)
    (hd₂ : directive? l₂ = none) (h₁ : Builds t [l₁] a a₁) (h₂ : Builds t [l₂] a a₂) :
    Builds t ["#if __mips__".toList, l₁, "#else".toList, l₂, "#endif".toList] a
      (if t.mips then a₁ else a₂) :=
  ifElse (l := "#if __mips__".toList) (by rcases t with ⟨_, _ | _, _⟩ <;> rfl) hd₁ hd₂ h₁ h₂

end Builds

section Object

variable {t : Target} {L : List (List Char)} {a : Section}

theorem assemble_of_builds (hL : ∀ l ∈ L, OneLine l) (h : Builds t L {} a) :
    (compileC t (writeLines L) >>= assemble t) = .ok a := by
  obtain ⟨kept, os, hp, ha, hn, hg⟩ := h
  have hc : compileC t (writeLines L) = .ok (writeLines os.reduceOption) := by
    rw [compileC, preprocess, splitLines_writeLines L hL, hp]
    show (List.reduceOption <$> kept.mapM asmStatement?) >>= (fun stmts => pure (writeLines stmts)) = _
    rw [ha]
    rfl
  rw [hc]
  show List.foldlM (gasLine t) {} (splitLines (writeLines os.reduceOption)) = _
  rw [splitLines_writeLines _ hn, hg]

theorem build_of_builds (hL : ∀ l ∈ L, OneLine l) (h : Builds t L {} a) :
    build t (writeLines L) = .ok (a.emit (t.functionCode.map .byte)) := by
  show (compileC t (writeLines L) >>= fun f => assemble t f >>= _) = _
  rw [← bind_assoc, assemble_of_builds hL h]
  rfl

/-- A file that builds from a fresh section has the data that section holds, then the
compiler's code. -/
theorem objectData_of_builds (hL : ∀ l ∈ L, OneLine l) (h : Builds t L {} a) (label : List Char) :
    objectData t (writeLines L) label = (a.emit (t.functionCode.map .byte)).dataAfter label := by
  show build t (writeLines L) >>= _ = _
  rw [build_of_builds hL h]
  rfl

end Object

end RtemsTools.Toolchain
