import RtemsTools.Syms.Filter
import Mathlib.Data.List.Infix
import Mathlib.Data.Nat.Digits

/-! # rtems-syms: the generated C file (`generate_c`)

The lines `generate_c` writes: the fixed header, then the lines of `output_sym` for each
symbol in key order, then the fixed trailer and the function that registers the table.
`generate_c` hands every symbol to `output_sym` with `weak` false, so the test for weak
symbols without a value in `output_sym` never skips one.
-/

namespace RtemsTools.Syms

/-- `c_header`. -/
def cHeader : List String :=
  ["/*",
   " * RTEMS Global Symbol Table",
   " *  Automatically generated. Do not edit..",
   " */",
   "",
   "extern const unsigned char rtems__rtl_base_globals[];",
   "extern const unsigned int rtems__rtl_base_globals_size[];",
   "",
   "void rtems_rtl_base_sym_global_add (const unsigned char* , unsigned int );",
   "",
   "asm(\".section \\\".rodata\\\"\");",
   "",
   "asm(\"  .align   4\");",
   "asm(\"  .local   rtems__rtl_base_globals\");",
   "asm(\"rtems__rtl_base_globals:\");",
   "#if __mips__",
   " asm(\"  .align 0\");",
   "#else",
   " asm(\"  .balign 1\");",
   "#endif"]

/-- `c_trailer`, as built without `BROKEN_ON_SOME_ASSEMBLERS`. -/
def cTrailer : List String :=
  ["asm(\"  .byte    0\");",
   "asm(\"  .ascii   \\\"\\xde\\xad\\xbe\\xef\\\"\");",
   "",
   "/*",
   " * Symbol table size.",
   " */",
   "asm(\"  .align   4\");",
   "asm(\"  .local   rtems__rtl_base_globals_size\");",
   "asm(\"rtems__rtl_base_globals_size:\");",
   "asm(\"  .long rtems__rtl_base_globals_size - rtems__rtl_base_globals\");",
   ""]

/-- `c_rtl_call_body`. -/
def cRtlCallBody : List String :=
  ["\x7b",
   "  rtems_rtl_base_sym_global_add (&rtems__rtl_base_globals[0],",
   "                                 rtems__rtl_base_globals_size[0]);",
   "\x7d"]

def cConstructorTrailer : List String :=
  ["static void init(void) __attribute__ ((constructor));",
   "static void init(void)"] ++ cRtlCallBody

def cEmbeddedTrailer : List String :=
  ["void rtems_rtl_base_global_syms_init(void);",
   "void rtems_rtl_base_global_syms_init(void)"] ++ cRtlCallBody

/-- The digits `std::hex` writes for `n`: lowercase, no leading zero, `0` for zero. -/
def hexDigits (n : Nat) : List Char :=
  if n = 0 then ['0'] else ((Nat.digits 16 n).map Nat.digitChar).reverse

/-- `std::hex << std::setfill ('0') << std::setw (8) << n`. -/
def hexValue (n : Nat) : String :=
  ⟨List.replicate (8 - (hexDigits n).length) '0' ++ hexDigits n⟩

/-- The line that writes a symbol's name into the table. -/
def ascizLine (name : String) : String := "asm(\"  .asciz \\\"" ++ name ++ "\\\"\");"

/-- `output_sym`: the lines of one symbol. -/
def outputSym (embed weak : Bool) (sym : Symbol) : List String :=
  -- Weak symbols without a value are probably unresolved externs. Ignore them.
  if weak && sym.value == 0 then []
  else
    [ascizLine sym.name] ++
    (if sym.type = STT_TLS then ["asm(\"  .type \\\"" ++ sym.name ++ "\\\", %tls_object\");"]
     else []) ++
    if embed then
      ["#if __SIZEOF_POINTER__ == 8",
       "asm(\"  .quad " ++ sym.name ++ "\");",
       "#else",
       "asm(\"  .long " ++ sym.name ++ "\");",
       "#endif"]
    else
      ["#if __SIZEOF_POINTER__ == 8",
       "asm(\"  .quad 0x" ++ hexValue sym.value.toNat ++ "\");",
       "#else",
       "asm(\"  .long 0x" ++ hexValue sym.value.toNat ++ "\");",
       "#endif"]

/-- `generate_c`: the lines written to the temporary C file. -/
def generateC (symbols : Symtab) (embed : Bool) : List String :=
  cHeader ++ symbols.entries.flatMap (fun sym => outputSym embed false sym.2) ++ cTrailer ++
    if embed then cEmbeddedTrailer else cConstructorTrailer

/-- A weak symbol of value 0 that the filter keeps, as `main` builds the table from no
global and this one weak symbol, still gets its name line: `generate_c` hands `output_sym`
the flag `weak` false, so the test that would skip it never fires. -/
theorem weak_zero_symbol_emitted :
    let w : Symbol := ⟨"w", "w", 0, 0, STB_WEAK⟩
    let S : Symtab := ⟨[("w", w)], List.pairwise_singleton _ _⟩
    filterSymbols ⟨fun _ => true, fun re text => re == text⟩ {} .empty S = .ok S ∧
      w.binding = STB_WEAK ∧ w.value = 0 ∧ ascizLine w.name ∈ generateC S false :=
  ⟨rfl, rfl, rfl, by simp [generateC, outputSym]⟩

/-! ## Which symbols get lines -/

/-- Whether a line is the `.asciz` line of a symbol. -/
def isAscizLine (line : String) : Bool := "asm(\"  .asciz \\\"".toList.isPrefixOf line.toList

/-- A line that starts with text neither a prefix of the `.asciz` opening nor extending
it is not an `.asciz` line. -/
theorem isAscizLine_append {lit : String} (rest : String)
    (h₁ : ¬ lit.toList <+: "asm(\"  .asciz \\\"".toList)
    (h₂ : ¬ "asm(\"  .asciz \\\"".toList <+: lit.toList) : isAscizLine (lit ++ rest) = false := by
  simp only [isAscizLine, Bool.eq_false_iff, ne_eq, List.isPrefixOf_iff_prefix, String.toList,
    String.data_append] at *
  intro h
  rcases le_total lit.data.length "asm(\"  .asciz \\\"".data.length with hl | hl
  · exact h₁ (List.prefix_of_prefix_length_le (List.prefix_append _ _) h hl)
  · exact h₂ (List.prefix_of_prefix_length_le h (List.prefix_append _ _) hl)

theorem isAscizLine_ascizLine (name : String) : isAscizLine (ascizLine name) = true := by
  simp only [isAscizLine, List.isPrefixOf_iff_prefix, ascizLine, String.toList, String.data_append]
  exact (List.prefix_append _ _).trans (List.prefix_append _ _)

/-- Of the lines of a symbol, only the first is an `.asciz` line. -/
theorem filter_outputSym (embed : Bool) (sym : Symbol) :
    (outputSym embed false sym).filter isAscizLine = [ascizLine sym.name] := by
  have hc : isAscizLine "#if __SIZEOF_POINTER__ == 8" = false ∧ isAscizLine "#else" = false ∧
      isAscizLine "#endif" = false := by decide
  simp only [outputSym, Bool.false_and, Bool.false_eq_true, if_false]
  split_ifs <;> simp (disch := decide) [List.filter_cons, isAscizLine_ascizLine,
    String.append_assoc, hc, isAscizLine_append]

/-- No line of the fixed text around the symbols is an `.asciz` line. -/
theorem filter_fixed_lines :
    (cHeader ++ cTrailer ++ cEmbeddedTrailer ++ cConstructorTrailer).filter isAscizLine = [] := by
  decide

/-- **Every symbol of the table gets a name line, in key order**, whatever its binding and
value: `generate_c` hands `output_sym` the flag `weak` false, so the test for unresolved
weak symbols never skips one. And the text depends on each symbol's name, type and value
only, so a weak symbol gets the lines of a global one with the same name, type and
value. -/
theorem generate_c_entries (symbols : Symtab) (embed : Bool) :
    (generateC symbols embed).filter isAscizLine =
      symbols.entries.map (fun e => ascizLine e.2.name) ∧
    ∀ symbols' : Symtab,
      symbols'.entries.map (fun e => (e.2.name, e.2.type, e.2.value)) =
        symbols.entries.map (fun e => (e.2.name, e.2.type, e.2.value)) →
      generateC symbols' embed = generateC symbols embed := by
  have hfixed := filter_fixed_lines
  simp only [List.filter_append, List.append_eq_nil] at hfixed
  refine ⟨?_, fun symbols' h => ?_⟩
  · -- The name lines come from the symbols alone.
    cases embed <;>
      simp [generateC, List.filter_flatMap, filter_outputSym, hfixed, List.map_eq_flatMap]
  · -- `output_sym` reads no other field of a symbol.
    have key : ∀ S : Symtab, S.entries.flatMap (fun sym => outputSym embed false sym.2) =
        (S.entries.map fun e => (e.2.name, e.2.type, e.2.value)).flatMap
          fun x => outputSym embed false ⟨x.1, "", x.2.2, x.2.1, 0⟩ := fun S => by
      rw [List.flatMap_map]; rfl
    simp only [generateC, key, h]

end RtemsTools.Syms
