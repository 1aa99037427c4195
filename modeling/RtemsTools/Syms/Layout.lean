import RtemsTools.Syms.Generate
import RtemsTools.Toolchain.Gas

/-! # rtems-syms: what the generated file builds to

The file `generate_c` writes, part by part, through the target's compiler and assembler.
The header leaves an empty section with the label `rtems__rtl_base_globals`, and the
MIPS assembler's own alignment turned off; each symbol appends its name, a zero byte and
its value slot; the trailer appends a zero byte and the bytes `DE AD BE EF`, then the size
word. The code of the function that registers the table may follow.
-/

namespace RtemsTools.Toolchain

/-- The targets the generated header is written for: pointers of 4 or 8 bytes, and an
assembler that aligns data directives by itself only where `__mips__` is defined, the one
case in which the header turns that alignment off. -/
structure Target.Supported (t : Target) : Prop where
  pointer : t.pointerSize = 4 ∨ t.pointerSize = 8
  align : t.autoAlign = true → t.mips = true

/-- After the header, the assembler no longer aligns data by itself. -/
theorem Target.Supported.packed {t : Target} (ht : t.Supported) :
    (t.autoAlign && !(t.mips && t.autoAlign)) = false := by
  cases h : t.autoAlign <;> simp [ht.align, h]

end RtemsTools.Toolchain

namespace RtemsTools.Syms

open Toolchain

/-! ## Hexadecimal values -/

/-- The digit values `hexDigits` writes. -/
def hexDigitValues (n : Nat) : List Nat := if n = 0 then [0] else (Nat.digits 16 n).reverse

theorem hexDigitValues_lt (n : Nat) : ∀ d ∈ hexDigitValues n, d < 16 := by
  unfold hexDigitValues
  split_ifs
  · simp
  · exact fun d hd => Nat.digits_lt_base (by norm_num) (List.mem_reverse.1 hd)

theorem hexDigitValues_ne_nil (n : Nat) : hexDigitValues n ≠ [] := by
  unfold hexDigitValues
  split_ifs with h
  · simp
  · simpa using Nat.digits_ne_nil_iff_ne_zero.2 h

theorem hexDigits_eq (n : Nat) : hexDigits n = (hexDigitValues n).map Nat.digitChar := by
  unfold hexDigits hexDigitValues
  split_ifs
  · rfl
  · simp [List.map_reverse]

theorem hexValue_toList (n : Nat) :
    (hexValue n).toList =
      (List.replicate (8 - (hexDigits n).length) 0 ++ hexDigitValues n).map Nat.digitChar := by
  simp [hexValue, String.toList, hexDigits_eq, List.map_replicate, Nat.digitChar]

/-- Each of the sixteen digits reads back. -/
theorem hexDigit?_digitChar : ∀ d : Fin 16, hexDigit? (Nat.digitChar d) = some d := by decide

theorem digitChar_mem : ∀ d : Fin 16, Nat.digitChar d ∈ "0123456789abcdef".toList := by decide

theorem mem_hexValue {n : Nat} {c : Char} (h : c ∈ (hexValue n).toList) :
    c ∈ "0123456789abcdef".toList := by
  rw [hexValue_toList] at h
  obtain ⟨d, hd, rfl⟩ := List.mem_map.1 h
  have : d < 16 := by
    rcases List.mem_append.1 hd with hd | hd
    · rw [List.eq_of_mem_replicate hd]; norm_num
    · exact hexDigitValues_lt n d hd
  exact digitChar_mem ⟨d, this⟩

theorem mapM_hexDigit? {ds : List Nat} (h : ∀ d ∈ ds, d < 16) :
    (ds.map Nat.digitChar).mapM hexDigit? = some ds := by
  induction ds with
  | nil => rfl
  | cons d ds ih =>
    simp only [List.mem_cons, forall_eq_or_imp] at h
    rw [List.map_cons, List.mapM_cons, hexDigit?_digitChar ⟨d, h.1⟩, ih h.2]
    rfl

theorem digitsValue_reverse (b : Nat) (ds : List Nat) :
    digitsValue b ds.reverse = Nat.ofDigits b ds := by
  induction ds with
  | nil => rfl
  | cons d ds ih =>
    simp only [digitsValue, List.reverse_cons, List.foldl_append] at ih ⊢
    rw [ih, Nat.ofDigits_cons]
    simp [add_comm]

theorem digitsValue_zeros (b k : Nat) (ds : List Nat) :
    digitsValue b (List.replicate k 0 ++ ds) = digitsValue b ds := by
  have : ∀ k, (List.replicate k 0).foldl (fun n d => b * n + d) 0 = 0 := by
    intro k; induction k <;> simp [List.replicate_succ, *]
  simp [digitsValue, List.foldl_append, this]

/-- The assembler reads back the value `std::hex` wrote. -/
theorem hexNumber?_hexValue (n : Nat) : hexNumber? (hexValue n).toList = some n := by
  have hlt : ∀ d ∈ List.replicate (8 - (hexDigits n).length) 0 ++ hexDigitValues n, d < 16 := by
    intro d hd
    rcases List.mem_append.1 hd with hd | hd
    · rw [List.eq_of_mem_replicate hd]; norm_num
    · exact hexDigitValues_lt n d hd
  have hne : (hexValue n).toList ≠ [] := by
    rw [hexValue_toList]
    simp [hexDigitValues_ne_nil]
  rw [hexNumber?, if_neg hne, hexValue_toList, mapM_hexDigit? hlt, Option.map_some',
    digitsValue_zeros]
  unfold hexDigitValues
  split_ifs with h
  · simp [h, digitsValue]
  · rw [digitsValue_reverse, Nat.ofDigits_digits]

theorem expr?_hexValue (t : Target) (n : Nat) :
    expr? t ('0' :: 'x' :: (hexValue n).toList) = some (.num n) := by
  have hdig : ∀ c ∈ "0123456789abcdef".toList, c ≠ '-' ∧ isBlank c = false := by decide
  rw [expr?_operand t fun c hc => ?_]
  · have hs : isSymbol ('0' :: 'x' :: (hexValue n).toList) = false := rfl
    have hn : number? ('0' :: 'x' :: (hexValue n).toList) = hexNumber? (hexValue n).toList := rfl
    rw [operand?, hs, if_neg Bool.false_ne_true, hn, hexNumber?_hexValue]
    rfl
  · rcases List.mem_cons.1 hc with rfl | hc
    · decide
    rcases List.mem_cons.1 hc with rfl | hc
    · decide
    exact hdig c (mem_hexValue hc)

/-- The operand `0x…` of a value slot needs no escape and has no line break. -/
theorem plain_hexOperand (n : Nat) : Plain ('0' :: 'x' :: (hexValue n).toList) := by
  have hdig : ∀ c ∈ "0x0123456789abcdef".toList, c ≠ '"' ∧ c ≠ '\\' ∧ c ≠ '\n' ∧ c ≠ '\r' := by
    decide
  intro c hc
  refine hdig c ?_
  rcases List.mem_cons.1 hc with rfl | hc
  · decide
  rcases List.mem_cons.1 hc with rfl | hc
  · decide
  exact List.mem_cons_of_mem _ (List.mem_cons_of_mem _ (mem_hexValue hc))

/-! ## A symbol's lines -/

/-- The value slot of a symbol: its value's bytes, or a field for what its name stands for. -/
def slotData (t : Target) (embed : Bool) (sym : Symbol) : List Datum :=
  if embed then [.field (symbolOperand t sym.name.toList) t.pointerSize]
  else (wordBytes t.bigEndian t.pointerSize sym.value.toNat).map .byte

/-- What the lines of a symbol put in the section. -/
def symbolData (t : Target) (embed : Bool) (sym : Symbol) : List Datum :=
  sym.name.toList.map (.byte ·.toNat) ++ .byte 0 :: slotData t embed sym

section Lines

variable {t : Target} {a : Section}

theorem builds_ascizLine {name : String} (h : Plain name.toList) :
    Builds t [(ascizLine name).toList] a (a.emit (name.toList.map (.byte ·.toNat) ++ [.byte 0])) := by
  have hline : (ascizLine name).toList =
      "asm(\"".toList ++ ("  .asciz \\\"".toList ++ (name.toList ++ "\\\"\");".toList)) := by
    simp only [ascizLine, String.toList, String.data_append, List.append_assoc]
    rfl
  rw [hline]
  refine Builds.stmt rfl
    (asmStatement?_plain "  .asciz \"".toList ['"'] h (fun _ _ => rfl) fun _ => rfl) ?_ ?_
  · simpa [OneLine] using h.oneLine
  · simpa using gasLine_asciz t a h

theorem builds_tlsLine {name : String} (h : Plain name.toList) :
    Builds t [("asm(\"  .type \\\"" ++ name ++ "\\\", %tls_object\");").toList] a a := by
  have hline : ("asm(\"  .type \\\"" ++ name ++ "\\\", %tls_object\");").toList =
      "asm(\"".toList ++ ("  .type \\\"".toList ++ (name.toList ++ "\\\", %tls_object\");".toList)) := by
    simp only [String.toList, String.data_append, List.append_assoc]
    rfl
  rw [hline]
  refine Builds.stmt rfl (asmStatement?_plain "  .type \"".toList "\", %tls_object".toList h
    (fun _ _ => rfl) fun _ => rfl) ?_ ?_
  · simpa [OneLine] using h.oneLine
  · simpa using gasLine_type t a name.toList

/-- The lines of a value slot: `.quad` or `.long` of the same operand, by pointer size. -/
theorem builds_slotLines {op : List Char} {c : Char} {e : Expr} (hop : Plain (c :: op))
    (hc : isBlank c = false) (hc' : c ≠ ':') (he : expr? t (c :: op) = some e) :
    Builds t ["#if __SIZEOF_POINTER__ == 8".toList,
      "asm(\"".toList ++ ("  .quad ".toList ++ ((c :: op) ++ "\");".toList)), "#else".toList,
      "asm(\"".toList ++ ("  .long ".toList ++ ((c :: op) ++ "\");".toList)), "#endif".toList] a
      (if t.pointerSize = 8 then a.emitData t 8 e else a.emitData t 4 e) := by
  have hn := hop.oneLine
  obtain ⟨hq, hl⟩ := gasLine_data t a hc hc' he
  refine Builds.pointerSize rfl rfl ?_ ?_
  · refine Builds.stmt rfl (asmStatement?_plain "  .quad ".toList [] hop (fun _ _ => rfl)
      fun _ => rfl) ?_ ?_
    · simpa [OneLine] using hn
    · simpa using hq
  · refine Builds.stmt rfl (asmStatement?_plain "  .long ".toList [] hop (fun _ _ => rfl)
      fun _ => rfl) ?_ ?_
    · simpa [OneLine] using hn
    · simpa using hl

/-- The lines of one symbol append its name, a zero byte and its value slot, where the
assembler does not align data by itself. -/
theorem builds_outputSym (hp : t.pointerSize = 4 ∨ t.pointerSize = 8)
    (ha : (t.autoAlign && a.autoAlign) = false) (embed : Bool) (sym : Symbol)
    (hname : Plain sym.name.toList) (hsym : embed = true → isSymbol sym.name.toList = true) :
    Builds t ((outputSym embed false sym).map String.toList) a (a.emit (symbolData t embed sym)) := by
  set a' := a.emit (sym.name.toList.map (.byte ·.toNat) ++ [.byte 0])
  have ha' : (t.autoAlign && a'.autoAlign) = false := by simpa [a'] using ha
  have hslot : Builds t ((if embed then
        ["#if __SIZEOF_POINTER__ == 8", "asm(\"  .quad " ++ sym.name ++ "\");", "#else",
          "asm(\"  .long " ++ sym.name ++ "\");", "#endif"]
      else
        ["#if __SIZEOF_POINTER__ == 8", "asm(\"  .quad 0x" ++ hexValue sym.value.toNat ++ "\");",
          "#else", "asm(\"  .long 0x" ++ hexValue sym.value.toNat ++ "\");", "#endif"]).map
        String.toList) a' (a'.emit (slotData t embed sym)) := by
    have hdata : ∀ e, (if t.pointerSize = 8 then a'.emitData t 8 e else a'.emitData t 4 e) =
        a'.emitData t t.pointerSize e := by
      rcases hp with hp | hp <;> simp [hp]
    cases embed
    · -- the value, in hexadecimal
      have h := builds_slotLines (t := t) (a := a') (plain_hexOperand sym.value.toNat) rfl
        (by decide) (expr?_hexValue t _)
      rw [hdata, Section.emitData_packed ha'] at h
      convert h using 2
    · -- the symbol itself
      obtain ⟨c, cs, hcs, hc⟩ := isSymbol_eq_cons (hsym rfl)
      obtain ⟨-, hb, hcolon⟩ := isSymbolChar_ne hc
      have h := builds_slotLines (t := t) (a := a') (hcs ▸ hname) hb hcolon
        (hcs ▸ expr?_symbol t (hsym rfl))
      rw [hdata, Section.emitData_field ha' _ (symbolOperand_ne_num t _)] at h
      have hcs' : sym.name.data = c :: cs := hcs
      convert h using 2
      · simp only [if_true, String.toList, String.data_append, List.map_cons, List.map_nil,
          List.append_assoc, hcs']
        rfl
      · simp [slotData, String.toList, hcs']
  have htls : Builds t ((if sym.type = STT_TLS then
      ["asm(\"  .type \\\"" ++ sym.name ++ "\\\", %tls_object\");"] else []).map String.toList) a' a' := by
    split_ifs
    · exact builds_tlsLine hname
    · exact Builds.nil a'
  have h := (builds_ascizLine (t := t) (a := a) hname).append (htls.append hslot)
  simp only [Section.emit_emit, List.append_assoc, List.singleton_append, a'] at h
  simpa [outputSym, symbolData] using h

end Lines

/-! ## The whole file -/

/-- The label the table starts at. -/
def baseGlobals : List Char := "rtems__rtl_base_globals".toList

/-- The bytes after the table's terminating zero. -/
def sentinel : List Datum := [0xde, 0xad, 0xbe, 0xef].map .byte

/-- The label of the size word. -/
def baseGlobalsSize : List Char := "rtems__rtl_base_globals_size".toList

/-- The size word's operand, `rtems__rtl_base_globals_size - rtems__rtl_base_globals`. -/
def sizeExpr : Expr := .sub (.sym baseGlobalsSize) (.sym baseGlobals)

/-- The boundary of `.align 4`: 4 bytes where `.align` counts bytes, else `2^4`. -/
def align4 (t : Target) : Nat := if t.alignInBytes then 4 else 2 ^ 4

/-- What the trailer makes of a section: a zero byte and `DE AD BE EF`, zero bytes up to
the boundary of `.align 4`, the label `rtems__rtl_base_globals_size` and the size word. -/
def trailerSection (t : Target) (a : Section) : Section :=
  let a₂ := (a.emit (.byte 0 :: sentinel)).alignTo (align4 t)
  { a₂ with labels := a₂.labels ++ [(baseGlobalsSize, a₂.data.length)] }.emit [.field sizeExpr 4]

/-- `.align 4`, which the header and the trailer both write. -/
theorem gasLine_align4 (t : Target) (a : Section) :
    gasLine t a "  .align   4".toList = pure (a.alignTo (align4 t)) := rfl

/-- The header leaves an empty section labelled `rtems__rtl_base_globals`; under `__mips__`,
`.align 0` turns the assembler's own alignment off. -/
theorem builds_cHeader (t : Target) :
    Builds t (cHeader.map String.toList) {} ⟨[], [(baseGlobals, 0)], !(t.mips && t.autoAlign)⟩ := by
  let start : Section := ⟨[], [(baseGlobals, 0)], true⟩
  have hoff : start.offset = 0 := rfl
  -- the declarations, then the table's label
  have hstart : Builds t ((cHeader.take 15).map String.toList) {} start := by
    have hos : ((cHeader.take 15).map String.toList).mapM asmStatement? = .ok
        ([none, none, none, none, none, none, none, none, none, none, some ".section \".rodata\"",
          none, some "  .align   4", some "  .local   rtems__rtl_base_globals",
          some "rtems__rtl_base_globals:"].map (Option.map String.toList)) := rfl
    have g₁ : ∀ a, gasLine t a ".section \".rodata\"".toList = pure a := fun _ => rfl
    have g₂ : ∀ a, gasLine t a "  .local   rtems__rtl_base_globals".toList = pure a := fun _ => rfl
    have hg : (List.map String.toList [".section \".rodata\"", "  .align   4",
        "  .local   rtems__rtl_base_globals", "rtems__rtl_base_globals:"]).foldlM (gasLine t) {} =
        .ok start := by
      simp only [List.map_cons, List.map_nil, List.foldlM_cons, List.foldlM_nil, g₁, g₂,
        gasLine_align4, pure_bind, Section.alignTo_of_offset_eq_zero (a := {}) rfl]
      rfl
    exact Builds.ofText (by decide) hos (by decide) hg
  -- `.align 0` under `__mips__`, else `.balign 1`
  have h₀ : Builds t [" asm(\"  .align 0\");".toList] start ⟨[], [(baseGlobals, 0)], !t.autoAlign⟩ := by
    have hg : gasLine t start "  .align 0".toList =
        pure (let a := start.alignTo (if t.alignInBytes then 0 else 2 ^ 0)
          if 0 = 0 ∧ t.autoAlign = true then { a with autoAlign := false } else a) := rfl
    refine Builds.stmt (s := "  .align 0".toList) rfl rfl (by decide) ?_
    rw [hg, Section.alignTo_of_offset_eq_zero hoff]
    cases t.autoAlign <;> rfl
  have h₁ : Builds t [" asm(\"  .balign 1\");".toList] start start := by
    refine Builds.stmt (s := "  .balign 1".toList) rfl rfl (by decide) ?_
    show (pure (start.alignTo 1) : Except ToolError Section) = _
    rw [Section.alignTo_of_offset_eq_zero hoff]
    rfl
  have h := hstart.append (Builds.mips (by rfl) (by rfl) h₀ h₁)
  rw [← List.take_append_drop 15 (cHeader.map String.toList), ← List.map_take, ← List.map_drop]
  revert h
  cases t.mips <;> exact id

section File

variable {t : Target} {a : Section}

/-- Every symbol's lines in turn. -/
theorem builds_entries (hp : t.pointerSize = 4 ∨ t.pointerSize = 8) (embed : Bool)
    (entries : List (String × Symbol)) (hname : ∀ e ∈ entries, Plain e.2.name.toList)
    (hsym : embed = true → ∀ e ∈ entries, isSymbol e.2.name.toList = true)
    (ha : (t.autoAlign && a.autoAlign) = false) :
    Builds t ((entries.flatMap fun e => outputSym embed false e.2).map String.toList) a
      (a.emit (entries.flatMap fun e => symbolData t embed e.2)) := by
  induction entries generalizing a with
  | nil => simpa using Builds.nil a
  | cons e entries ih =>
    simp only [List.mem_cons, forall_eq_or_imp] at hname hsym
    have h := (builds_outputSym hp ha embed e.2 hname.1 fun h => (hsym h).1).append
      (ih hname.2 (fun h => (hsym h).2) (a := a.emit (symbolData t embed e.2)) (by simpa using ha))
    simpa [List.flatMap_cons] using h

/-- The trailer appends a zero byte and `DE AD BE EF`, then the size word under its label. -/
theorem builds_cTrailer (ha : (t.autoAlign && a.autoAlign) = false) (hl : a.labels = [(baseGlobals, 0)]) :
    Builds t (cTrailer.map String.toList) a (trailerSection t a) := by
  have hos : (cTrailer.map String.toList).mapM asmStatement? = .ok
      ([some "  .byte    0", some "  .ascii   \"\xde\xad\xbe\xef\"", none, none, none, none,
        some "  .align   4", some "  .local   rtems__rtl_base_globals_size",
        some "rtems__rtl_base_globals_size:",
        some "  .long rtems__rtl_base_globals_size - rtems__rtl_base_globals", none].map
        (Option.map String.toList)) := rfl
  have g₁ : ∀ a, gasLine t a "  .byte    0".toList = pure (a.emitData t 1 (.num 0)) := fun _ => rfl
  have g₂ : ∀ a, gasLine t a "  .ascii   \"\xde\xad\xbe\xef\"".toList = pure (a.emit sentinel) :=
    fun _ => rfl
  have g₄ : ∀ a, gasLine t a "  .local   rtems__rtl_base_globals_size".toList = pure a :=
    fun _ => rfl
  have g₅ : ∀ a : Section, a.labels = [(baseGlobals, 0)] →
      gasLine t a "rtems__rtl_base_globals_size:".toList =
        pure { a with labels := a.labels ++ [("rtems__rtl_base_globals_size".toList, a.data.length)] } := by
    rintro ⟨d, l, aa⟩ rfl; rfl
  have g₆ : ∀ a, gasLine t a "  .long rtems__rtl_base_globals_size - rtems__rtl_base_globals".toList =
      pure (a.emitData t 4 (.sub (.sym "rtems__rtl_base_globals_size".toList) (.sym baseGlobals))) :=
    fun _ => rfl
  have hg : (List.map String.toList ["  .byte    0", "  .ascii   \"\xde\xad\xbe\xef\"",
      "  .align   4", "  .local   rtems__rtl_base_globals_size", "rtems__rtl_base_globals_size:",
      "  .long rtems__rtl_base_globals_size - rtems__rtl_base_globals"]).foldlM (gasLine t) a =
      .ok (trailerSection t a) := by
    simp only [List.map_cons, List.map_nil, List.foldlM_cons, List.foldlM_nil, g₁, g₂,
      gasLine_align4, g₄, g₆, pure_bind]
    have h₁ : a.emitData t 1 (.num 0) = a.emit [.byte 0] := by
      simp [Section.emitData_packed ha, wordBytes, leBytes]
    rw [g₅ _ (by simpa using hl), pure_bind, h₁, Section.emit_emit, Section.emitData_packed (by simpa using ha)]
    rfl
  exact Builds.ofText (by decide) hos (by decide) hg

/-- The registering function at the end is C without `asm`. -/
theorem builds_registration (embed : Bool) (a : Section) :
    Builds t ((if embed then cEmbeddedTrailer else cConstructorTrailer).map String.toList) a a := by
  cases embed <;> exact Builds.ofText (by decide) rfl (by decide) rfl

/-- No line of the file holds a line break, when no name does. -/
theorem outputSym_oneLine (embed : Bool) (sym : Symbol) (hname : Plain sym.name.toList) :
    ∀ l ∈ outputSym embed false sym, OneLine l.toList := by
  obtain ⟨hn, hr⟩ : OneLine sym.name.data := hname.oneLine
  have hx : OneLine (hexValue sym.value.toNat).data := by
    constructor <;> intro h <;> revert h <;> exact fun h => absurd (mem_hexValue h) (by decide)
  -- Every line is fixed text around the name or the value.
  simp only [outputSym, ascizLine, Bool.false_and, Bool.false_eq_true, if_false]
  split_ifs <;> simp [OneLine, String.toList, String.data_append, hn, hr, hx.1, hx.2]

theorem generateC_oneLine (symbols : Symtab) (embed : Bool)
    (hname : ∀ e ∈ symbols.entries, Plain e.2.name.toList) :
    ∀ l ∈ (generateC symbols embed).map String.toList, OneLine l := by
  have hfixed : ∀ l ∈ cHeader ++ cTrailer ++ cEmbeddedTrailer ++ cConstructorTrailer, OneLine l.toList := by
    decide
  simp only [generateC, List.map_append, List.mem_append, List.mem_map, List.mem_flatMap]
  rintro _ (((⟨l, hl, rfl⟩ | ⟨l, ⟨e, he, hl⟩, rfl⟩) | ⟨l, hl, rfl⟩) | ⟨l, hl, rfl⟩)
  · exact hfixed l (by simp [hl])
  · exact outputSym_oneLine embed e.2 (hname e he) l hl
  · exact hfixed l (by simp [hl])
  · cases embed <;> exact hfixed l (by simp_all)

/-- The generated file builds to the header's labelled section, each symbol's data in turn,
then the trailer's. -/
theorem builds_generateC (ht : t.Supported) (embed : Bool)
    (symbols : Symtab) (hname : ∀ e ∈ symbols.entries, Plain e.2.name.toList)
    (hsym : embed = true → ∀ e ∈ symbols.entries, isSymbol e.2.name.toList = true) :
    Builds t ((generateC symbols embed).map String.toList) {}
      (trailerSection t ((⟨[], [(baseGlobals, 0)], !(t.mips && t.autoAlign)⟩ : Section).emit
        (symbols.entries.flatMap fun e => symbolData t embed e.2))) := by
  have hE := builds_entries (a := ⟨[], [(baseGlobals, 0)], !(t.mips && t.autoAlign)⟩) ht.pointer embed
    symbols.entries hname hsym ht.packed
  have h := (((builds_cHeader t).append hE).append (builds_cTrailer (by simpa using ht.packed) rfl)).append
    (builds_registration embed _)
  rw [← List.map_append, ← List.map_append, ← List.map_append] at h
  rw [generateC]
  exact h

/-- **What the generated file builds to.** After the label `rtems__rtl_base_globals` the
object holds each symbol's name, a zero byte and its value slot, in key order, then a
zero byte and `DE AD BE EF`. -/
theorem objectData_generateC (ht : t.Supported) (embed : Bool)
    (symbols : Symtab) (hname : ∀ e ∈ symbols.entries, Plain e.2.name.toList)
    (hsym : embed = true → ∀ e ∈ symbols.entries, isSymbol e.2.name.toList = true) :
    ∃ rest, objectData t (writeLines ((generateC symbols embed).map String.toList)) baseGlobals =
      .ok (symbols.entries.flatMap (fun e => symbolData t embed e.2) ++ .byte 0 :: (sentinel ++ rest)) := by
  rw [objectData_of_builds (generateC_oneLine symbols embed hname)
    (builds_generateC ht embed symbols hname hsym)]
  simp [Section.dataAfter, trailerSection, Section.alignTo]

end File

theorem size_symbolData (t : Target) (embed : Bool) (sym : Symbol) :
    ((symbolData t embed sym).map Datum.size).sum = sym.name.length + 1 + t.pointerSize := by
  cases embed <;> simp [symbolData, slotData, Datum.size, Function.comp_def, Nat.add_assoc]

theorem size_entries (t : Target) (embed : Bool) (entries : List (String × Symbol)) :
    ((entries.flatMap fun e => symbolData t embed e.2).map Datum.size).sum =
      (entries.map fun e => e.2.name.length + 1 + t.pointerSize).sum := by
  induction entries with
  | nil => rfl
  | cons e entries ih => simp only [List.flatMap_cons, List.map_append, List.sum_append, ih,
      size_symbolData, List.map_cons, List.sum_cons]

section Trailer

variable (t : Target) {a : Section} (hl : a.labels = [(baseGlobals, 0)])
include hl

/-- The size word follows its label, whatever the compiler puts after it. -/
theorem dataAfter_trailerSection_emit (ds : List Datum) :
    ((trailerSection t a).emit ds).dataAfter baseGlobalsSize = .ok (.field sizeExpr 4 :: ds) := by
  simp [Section.dataAfter, trailerSection, hl, baseGlobals, baseGlobalsSize]

/-- The size word's value: the offset after the sentinel, rounded up to `.align 4`. -/
theorem value_trailerSection_emit (ds : List Datum) :
    ((trailerSection t a).emit ds).value sizeExpr =
      some ↑(a.offset + 5 + (align4 t - (a.offset + 5) % align4 t) % align4 t) := by
  simp [Section.value, sizeExpr, Section.labelAddress, trailerSection, hl, baseGlobals, baseGlobalsSize,
    ← Section.offset.eq_1, sentinel, Datum.size]

end Trailer

/-- **The size word.** In the object the generated file builds to, the label
`rtems__rtl_base_globals_size`, which the registering function passes on as the table's size,
is followed by a 4-byte word and then by the code the compiler puts after the last `asm`
statement. The word is the number of bytes from `rtems__rtl_base_globals` to that label: for
each symbol its name, a zero byte and a pointer-sized slot, then the zero byte and
`DE AD BE EF`, rounded up to the boundary of `.align 4`. -/
theorem base_globals_size (t : Target) (ht : t.Supported) (embed : Bool)
    (symbols : Symtab) (hname : ∀ e ∈ symbols.entries, Plain e.2.name.toList)
    (hsym : embed = true → ∀ e ∈ symbols.entries, isSymbol e.2.name.toList = true) :
    ∃ sec, build t (writeLines ((generateC symbols embed).map String.toList)) = .ok sec ∧
      sec.dataAfter baseGlobalsSize = .ok (.field sizeExpr 4 :: t.functionCode.map .byte) ∧
      ∃ size : Nat, sec.value sizeExpr = some size ∧ align4 t ∣ size ∧
        let n := (symbols.entries.map fun e => e.2.name.length + 1 + t.pointerSize).sum + 5
        n ≤ size ∧ size < n + align4 t := by
  refine ⟨_, build_of_builds (generateC_oneLine symbols embed hname)
    (builds_generateC ht embed symbols hname hsym), ?_, ?_⟩
  · exact dataAfter_trailerSection_emit t rfl _
  · refine ⟨_, value_trailerSection_emit t rfl _, ?_⟩
    have hS : ((⟨[], [(baseGlobals, 0)], !(t.mips && t.autoAlign)⟩ : Section).emit
        (symbols.entries.flatMap fun e => symbolData t embed e.2)).offset =
        (symbols.entries.map fun e => e.2.name.length + 1 + t.pointerSize).sum := by
      simp [Section.offset, size_entries]
    have hA : align4 t = 4 ∨ align4 t = 16 := by unfold align4; split <;> simp
    dsimp only
    rw [hS]
    rcases hA with h | h <;> rw [h] <;> omega

theorem base_globals_size_example :
    let t : Target := ⟨4, false, false, false, false, false, [0x55, 0xc3]⟩
    let S : Symtab := ⟨[("foo", ⟨"foo", "foo", 16, 2, STB_GLOBAL⟩)], List.pairwise_singleton _ _⟩
    t.Supported ∧ (∀ e ∈ S.entries, Plain e.2.name.toList) ∧
      ∃ sec, build t (writeLines ((generateC S false).map String.toList)) = .ok sec ∧
        sec.value sizeExpr = some 16 := by
  intro t S
  have ht : t.Supported := ⟨.inl rfl, fun h => absurd h Bool.false_ne_true⟩
  have hname : ∀ e ∈ S.entries, Plain e.2.name.toList := by unfold Plain; decide
  obtain ⟨sec, hsec, -, size, hv, hdvd, hle, hlt⟩ :=
    base_globals_size t ht false S hname fun h => absurd h Bool.false_ne_true
  -- `foo`: three characters, a zero byte and four value bytes, then five bytes, is 13.
  have hsize : size = 16 := by
    have h3 : "foo".length = 3 := rfl
    simp only [align4, t, S] at hdvd hle hlt
    norm_num [h3] at hdvd hle hlt
    omega
  exact ⟨ht, hname, sec, hsec, by rw [hv, hsize]; rfl⟩

end RtemsTools.Syms
