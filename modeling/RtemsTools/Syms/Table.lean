import RtemsTools.Syms.Layout

/-! # rtems-syms: reading the table back

The loader's `rtems_rtl_base_sym_global_add` walks the table the generated object holds
after `rtems__rtl_base_globals`: a name up to its zero byte, then a value of the
target's pointer size, until it reads an empty name.
-/

namespace RtemsTools.Syms

open Toolchain

/-- A value slot as read: the value of its bytes, or a field the linker fills. -/
inductive Slot
  | value (n : Nat)
  | ref (e : Expr)
deriving DecidableEq, Repr

/-- The value of bytes, least significant first. -/
def leValue : List Nat → Nat
  | [] => 0
  | b :: bs => b + 256 * leValue bs

def wordValue (bigEndian : Bool) (bs : List Nat) : Nat :=
  leValue (if bigEndian then bs.reverse else bs)

/-- A name up to its zero byte. -/
def readName : List Datum → Option (List Char × List Datum)
  | .byte 0 :: rest => some ([], rest)
  | .byte b :: rest => (readName rest).map fun r => (Char.ofNat b :: r.1, r.2)
  | _ => none

def bytes? : List Datum → Option (List Nat)
  | [] => some []
  | .byte b :: ds => (bytes? ds).map (b :: ·)
  | .field _ _ :: _ => none

/-- A value of `p` bytes, or else a field of `p` bytes. -/
def readSlot (bigEndian : Bool) (p : Nat) (ds : List Datum) : Option (Slot × List Datum) :=
  match bytes? (ds.take p) with
  | some bs => if bs.length = p then some (.value (wordValue bigEndian bs), ds.drop p) else none
  | none =>
    match ds with
    | .field e n :: rest => if n = p then some (.ref e, rest) else none
    | _ => none

theorem readName_length {ds rest : List Datum} {cs : List Char} (h : readName ds = some (cs, rest)) :
    rest.length < ds.length := by
  induction ds generalizing cs with
  | nil => simp [readName] at h
  | cons d ds ih =>
    rcases d with (_ | b) | ⟨e, n⟩
    · simp only [readName, Option.some.injEq, Prod.mk.injEq] at h
      simp [h.2]
    · simp only [readName, Option.map_eq_some'] at h
      obtain ⟨⟨cs', rest'⟩, hr, hrr⟩ := h
      obtain ⟨-, rfl⟩ := Prod.mk.inj hrr
      exact Nat.lt_succ_of_lt (ih hr)
    · simp [readName] at h

theorem readSlot_length {bigEndian : Bool} {p : Nat} {ds rest : List Datum} {s : Slot}
    (h : readSlot bigEndian p ds = some (s, rest)) : rest.length ≤ ds.length := by
  unfold readSlot at h
  split at h
  · split_ifs at h; cases h; simp
  · split at h
    · split_ifs at h; cases h; simp
    · cases h

/-- Names and slots, until an empty name; and the data after it. -/
def readTable (bigEndian : Bool) (p : Nat) (ds : List Datum) :
    Option (List (String × Slot) × List Datum) :=
  match _hname : readName ds with
  | none => none
  | some ([], rest) => some ([], rest)
  | some (c :: cs, rest) =>
    match _hslot : readSlot bigEndian p rest with
    | none => none
    | some (slot, rest') =>
      (readTable bigEndian p rest').map fun r => ((⟨c :: cs⟩, slot) :: r.1, r.2)
termination_by ds.length
decreasing_by exact (readSlot_length _hslot).trans_lt (readName_length _hname)

/-! ## Reading what the assembler wrote -/

theorem leValue_leBytes (k n : Nat) : leValue (leBytes k n) = n % 256 ^ k := by
  induction k generalizing n with
  | zero => simp [leBytes, leValue, Nat.mod_one]
  | succ k ih => rw [leBytes, leValue, ih, pow_succ', Nat.mod_mul]

theorem wordValue_wordBytes (bigEndian : Bool) (k n : Nat) :
    wordValue bigEndian (wordBytes bigEndian k n) = n % 256 ^ k := by
  cases bigEndian <;> simp [wordValue, wordBytes, leValue_leBytes]

theorem bytes?_map_byte (l : List Nat) : bytes? (l.map .byte) = some l := by
  induction l with
  | nil => rfl
  | cons b l ih => simp [bytes?, ih]

/-- A name without a zero character reads back up to the zero byte after it. -/
theorem readName_chars {s : List Char} (h : ∀ c ∈ s, c ≠ '\x00') (rest : List Datum) :
    readName (s.map (.byte ·.toNat) ++ .byte 0 :: rest) = some (s, rest) := by
  induction s with
  | nil => rfl
  | cons c s ih =>
    simp only [List.mem_cons, forall_eq_or_imp] at h
    obtain ⟨k, hk⟩ : ∃ k, c.toNat = k + 1 :=
      Nat.exists_eq_succ_of_ne_zero fun h0 => h.1 (by rw [← Char.ofNat_toNat c, h0])
    simp only [List.map_cons, List.cons_append, hk, readName, ih h.2, Option.map_some']
    rw [← hk, Char.ofNat_toNat]

/-- A value slot of `p` bytes reads back as its value modulo `256 ^ p`. -/
theorem readSlot_value {bigEndian : Bool} {p : Nat} (n : Nat) (rest : List Datum) :
    readSlot bigEndian p ((wordBytes bigEndian p n).map .byte ++ rest) =
      some (.value (n % 256 ^ p), rest) := by
  have hlen : ((wordBytes bigEndian p n).map Datum.byte).length = p := by simp
  simp [readSlot, List.take_left' hlen, List.drop_left' hlen, bytes?_map_byte,
    wordValue_wordBytes, hlen]

theorem readSlot_ref {bigEndian : Bool} {p : Nat} (hp : 0 < p) (e : Expr) (rest : List Datum) :
    readSlot bigEndian p (.field e p :: rest) = some (.ref e, rest) := by
  obtain ⟨k, rfl⟩ := Nat.exists_eq_add_of_lt hp
  simp [readSlot, bytes?]

theorem readTable_stop {bigEndian : Bool} {p : Nat} (rest : List Datum) :
    readTable bigEndian p (.byte 0 :: rest) = some ([], rest) := by
  rw [readTable]
  rfl

theorem readTable_entry {bigEndian : Bool} {p : Nat} {ds rest rest' : List Datum} {c : Char}
    {cs : List Char} {slot : Slot} (hn : readName ds = some (c :: cs, rest))
    (hs : readSlot bigEndian p rest = some (slot, rest')) :
    readTable bigEndian p ds =
      (readTable bigEndian p rest').map fun r => ((⟨c :: cs⟩, slot) :: r.1, r.2) := by
  rw [readTable]
  split <;> simp_all
  obtain ⟨⟨rfl, rfl⟩, rfl⟩ := hn
  split <;> simp_all

/-- The loader reads back each symbol's name and value slot, in order, and stops at the
zero byte after the last. -/
theorem readTable_symbolData (t : Target) (hp : 0 < t.pointerSize) (embed : Bool)
    (entries : List (String × Symbol))
    (hname : ∀ e ∈ entries, e.2.name ≠ "" ∧ ∀ c ∈ e.2.name.toList, c ≠ '\x00')
    (hval : embed = false → ∀ e ∈ entries, e.2.value.toNat < 256 ^ t.pointerSize)
    (rest : List Datum) :
    readTable t.bigEndian t.pointerSize
        (entries.flatMap (fun e => symbolData t embed e.2) ++ .byte 0 :: rest) =
      some (entries.map fun e =>
        (e.2.name, if embed then .ref (symbolOperand t e.2.name.toList) else .value e.2.value.toNat),
        rest) := by
  induction entries with
  | nil => exact readTable_stop rest
  | cons e entries ih =>
    simp only [List.mem_cons, forall_eq_or_imp] at hname hval
    obtain ⟨c, cs, hcs⟩ : ∃ c cs, e.2.name.toList = c :: cs := by
      cases h : e.2.name.toList with
      | nil => exact absurd (String.ext h) hname.1.1
      | cons c cs => exact ⟨c, cs, rfl⟩
    rw [List.flatMap_cons, List.append_assoc, symbolData, List.append_assoc, List.cons_append]
    set tail := entries.flatMap (fun e => symbolData t embed e.2) ++ .byte 0 :: rest
    -- The name up to its zero byte, then the slot, then the other entries.
    have hn : readName (e.2.name.toList.map (.byte ·.toNat) ++ .byte 0 :: (slotData t embed e.2 ++ tail)) =
        some (c :: cs, slotData t embed e.2 ++ tail) := by
      rw [readName_chars hname.1.2, hcs]
    have hslot : readSlot t.bigEndian t.pointerSize (slotData t embed e.2 ++ tail) =
        some (if embed then .ref (symbolOperand t e.2.name.toList) else .value e.2.value.toNat,
          tail) := by
      cases embed
      · simp only [slotData, Bool.false_eq_true, if_false, readSlot_value,
          Nat.mod_eq_of_lt (hval rfl).1]
      · exact readSlot_ref hp _ _
    rw [readTable_entry hn hslot, ih hname.2 fun h => (hval h).2]
    simp [← hcs]

/-! ## The round trip -/

/-- What the loader reads after `rtems__rtl_base_globals` in the object that the lines of
a C file build to. -/
def readBaseGlobals (t : Target) (lines : List String) :
    Except ToolError (Option (List (String × Slot) × List Datum)) :=
  readTable t.bigEndian t.pointerSize <$>
    objectData t (writeLines (lines.map String.toList)) baseGlobals

/-- The round trip, for either kind of value slot. -/
theorem readBaseGlobals_generateC (t : Target) (ht : t.Supported) (embed : Bool) (symbols : Symtab)
    (hnames : ∀ e ∈ symbols.entries, e.2.name ≠ "" ∧
      ∀ c ∈ e.2.name.toList, c ≠ '"' ∧ c ≠ '\\' ∧ c ≠ '\n' ∧ c ≠ '\r' ∧ c ≠ '\x00')
    (hval : embed = false → ∀ e ∈ symbols.entries, e.2.value.toNat < 256 ^ t.pointerSize)
    (hsym : embed = true → ∀ e ∈ symbols.entries, isSymbol e.2.name.toList = true ∧
      e.2.name ≠ "." ∧ (t.x86 = true → e.2.name ≠ "_GLOBAL_OFFSET_TABLE_")) :
    ∃ rest, readBaseGlobals t (generateC symbols embed) =
      .ok (some (symbols.entries.map fun e =>
        (e.2.name, if embed then .ref (.sym e.2.name.toList) else .value e.2.value.toNat),
        sentinel ++ rest)) := by
  have hplain : ∀ e ∈ symbols.entries, Plain e.2.name.toList := fun e he c hc =>
    have h := (hnames e he).2 c hc
    ⟨h.1, h.2.1, h.2.2.1, h.2.2.2.1⟩
  obtain ⟨rest, h⟩ := objectData_generateC ht embed symbols hplain fun h e he => (hsym h e he).1
  refine ⟨rest, ?_⟩
  rw [readBaseGlobals, h]
  show Except.ok (readTable _ _ _) = _
  rw [readTable_symbolData t (by rcases ht.pointer with h | h <;> omega) embed _
    (fun e he => ⟨(hnames e he).1, fun c hc => ((hnames e he).2 c hc).2.2.2.2⟩) hval]
  cases embed
  · rfl
  · -- each name stands for its own address
    simp only [if_true]
    congr 3
    refine List.map_congr_left fun e he => ?_
    obtain ⟨-, hdot, hgot⟩ := hsym rfl e he
    rw [symbolOperand_sym (w := e.2.name.toList) t (fun h => hdot (String.ext h))
      fun hx h => hgot hx (String.ext h)]

/-- **The generated table reads back.** For a target with 4- or 8-byte pointers whose
assembler aligns data by itself only under `__mips__`, and names that are not empty and hold
no quote, backslash, newline, carriage return or zero character, the loader reads from the
object `generate_c` builds to every symbol of the table in key order, each once, then stops
at the zero byte before `DE AD BE EF`. Without `embed` each slot holds the symbol's value,
if it fits in a pointer; with `embed` each slot is a field that refers to the symbol's own
name, if every name is one the assembler reads as a symbol standing for its address: not
`.`, and on x86 not `_GLOBAL_OFFSET_TABLE_`. -/
theorem generate_c_round_trip (t : Target) (ht : t.Supported) (symbols : Symtab)
    (hnames : ∀ e ∈ symbols.entries, e.2.name ≠ "" ∧
      ∀ c ∈ e.2.name.toList, c ≠ '"' ∧ c ≠ '\\' ∧ c ≠ '\n' ∧ c ≠ '\r' ∧ c ≠ '\x00') :
    ((∀ e ∈ symbols.entries, e.2.value.toNat < 256 ^ t.pointerSize) →
      ∃ rest, readBaseGlobals t (generateC symbols false) =
        .ok (some (symbols.entries.map fun e => (e.2.name, .value e.2.value.toNat),
          sentinel ++ rest))) ∧
    ((∀ e ∈ symbols.entries, isSymbol e.2.name.toList = true ∧ e.2.name ≠ "." ∧
        (t.x86 = true → e.2.name ≠ "_GLOBAL_OFFSET_TABLE_")) →
      ∃ rest, readBaseGlobals t (generateC symbols true) =
        .ok (some (symbols.entries.map fun e => (e.2.name, .ref (.sym e.2.name.toList)),
          sentinel ++ rest))) := by
  refine ⟨fun hval => ?_, fun hsym => ?_⟩
  · simpa using readBaseGlobals_generateC t ht false symbols hnames (fun _ => hval) (by simp)
  · simpa using readBaseGlobals_generateC t ht true symbols hnames (by simp) fun _ => hsym

theorem generate_c_round_trip_example :
    (∃ rest, readBaseGlobals ⟨8, false, false, false, false, false, [0x55, 0xc3]⟩
      (generateC ⟨[("foo", ⟨"foo", "foo", 0x1234, 2, STB_GLOBAL⟩)], List.pairwise_singleton _ _⟩ false) =
        .ok (some ([("foo", .value 0x1234)], sentinel ++ rest))) ∧
    ∃ rest, readBaseGlobals ⟨4, true, true, true, true, true, []⟩
      (generateC ⟨[("foo", ⟨"foo", "foo", 0x1234, 2, STB_GLOBAL⟩)], List.pairwise_singleton _ _⟩ true) =
        .ok (some ([("foo", .ref (.sym "foo".toList))], sentinel ++ rest)) :=
  ⟨(generate_c_round_trip _ ⟨.inr rfl, fun h => absurd h Bool.false_ne_true⟩ _ (by decide)).1 (by decide),
    (generate_c_round_trip _ ⟨.inl rfl, fun _ => rfl⟩ _ (by decide)).2 (by decide)⟩

/-- With `embed`, a name the assembler reads as a number is no reference: the slot of the
symbol `1` is the bytes of the value 1. -/
theorem numeric_name_slot_is_value :
    (∀ e ∈ [("1", (⟨"1", "1", 0x1000, 2, STB_GLOBAL⟩ : Symbol))], e.2.name ≠ "" ∧
      ∀ c ∈ e.2.name.toList, c ≠ '"' ∧ c ≠ '\\' ∧ c ≠ '\n' ∧ c ≠ '\r' ∧ c ≠ '\x00') ∧
    ∃ rest, readBaseGlobals ⟨8, false, false, false, false, false, []⟩
      (generateC ⟨[("1", ⟨"1", "1", 0x1000, 2, STB_GLOBAL⟩)], List.pairwise_singleton _ _⟩ true) =
        .ok (some ([("1", .value 1)], sentinel ++ rest)) :=
  ⟨by decide, [.byte 0, .field (.sub (.sym "rtems__rtl_base_globals_size".toList) (.sym baseGlobals)) 4],
    by
    generalize hrest : [Datum.byte 0, .field (.sub (.sym "rtems__rtl_base_globals_size".toList)
      (.sym baseGlobals)) 4] = rest
    have hobj : objectData ⟨8, false, false, false, false, false, []⟩ (writeLines ((generateC
        ⟨[("1", ⟨"1", "1", 0x1000, 2, STB_GLOBAL⟩)], List.pairwise_singleton _ _⟩ true).map String.toList))
        baseGlobals = .ok ([.byte 49, .byte 0] ++ ((wordBytes false 8 1).map .byte ++ .byte 0 ::
          (sentinel ++ rest))) := by
      subst hrest; rfl
    have hname : readName ([.byte 49, .byte 0] ++ ((wordBytes false 8 1).map .byte ++ .byte 0 ::
        (sentinel ++ rest))) = some (['1'], (wordBytes false 8 1).map .byte ++ .byte 0 :: (sentinel ++ rest)) :=
      rfl
    rw [readBaseGlobals, hobj]
    show Except.ok (readTable _ _ _) = _
    rw [readTable_entry hname (readSlot_value 1 _), readTable_stop]
    rfl⟩

/-! ## The table of a run -/

/-- **What rtems-syms builds.** Whenever `main`'s filtering of the kernel's globals and weaks
succeeds, and every symbol has a name and a value the round trip allows, the loader reads
from the object `generate_c` builds to one entry per name the filter keeps, at least one,
in key order: the weak symbol of that name if the filter selects it, else the selected
global one. -/
theorem rtems_syms_table (engine : RegexEngine) (f : SymbolFilter) (globals weaks fs : Symtab)
    (hfs : filterSymbols engine f globals weaks = .ok fs) (t : Target) (ht : t.Supported)
    (embed : Bool)
    (hnames : ∀ e ∈ globals.entries ++ weaks.entries, e.2.name ≠ "" ∧
      ∀ c ∈ e.2.name.toList, c ≠ '"' ∧ c ≠ '\\' ∧ c ≠ '\n' ∧ c ≠ '\r' ∧ c ≠ '\x00')
    (hval : embed = false →
      ∀ e ∈ globals.entries ++ weaks.entries, e.2.value.toNat < 256 ^ t.pointerSize)
    (hsym : embed = true → ∀ e ∈ globals.entries ++ weaks.entries,
      isSymbol e.2.name.toList = true ∧ e.2.name ≠ "." ∧
        (t.x86 = true → e.2.name ≠ "_GLOBAL_OFFSET_TABLE_")) :
    fs.entries ≠ [] ∧
    (∀ k sym, (k, sym) ∈ fs.entries ↔ f.Selects engine sym ∧
      (weaks.find? k = some sym ∨
        globals.find? k = some sym ∧ ∀ w, weaks.find? k = some w → ¬ f.Selects engine w)) ∧
    ∃ rest, readBaseGlobals t (generateC fs embed) =
      .ok (some (fs.entries.map fun e =>
        (e.2.name, if embed then .ref (.sym e.2.name.toList) else .value e.2.value.toNat),
        sentinel ++ rest)) := by
  obtain ⟨kept, hrun, hk⟩ := filterSymbols_eq engine f globals weaks
    (compiles_of_filterSymbols_eq_ok engine f globals weaks hfs)
  rw [hrun] at hfs
  split_ifs at hfs with h0
  cases hfs
  have hsub := mem_entries_of_find? engine f globals weaks hk
  exact ⟨fun h => h0 (by simp [StdMap.size, h]), fun k sym => StdMap.mem_entries.trans (hk k sym),
    readBaseGlobals_generateC t ht embed fs (fun e he => hnames e (hsub e he))
      (fun h e he => hval h e (hsub e he)) (fun h e he => hsym h e (hsub e he))⟩

theorem rtems_syms_table_example :
    let engine : RegexEngine := ⟨fun _ => true, fun re text => re == text⟩
    let globals : Symtab := ⟨[("foo", ⟨"foo", "foo", 0x1234, 2, STB_GLOBAL⟩)], List.pairwise_singleton _ _⟩
    filterSymbols engine {} globals .empty = .ok globals ∧
      (∀ e ∈ globals.entries ++ StdMap.empty.entries, e.2.name ≠ "" ∧
        ∀ c ∈ e.2.name.toList, c ≠ '"' ∧ c ≠ '\\' ∧ c ≠ '\n' ∧ c ≠ '\r' ∧ c ≠ '\x00') ∧
      (∀ e ∈ globals.entries ++ StdMap.empty.entries, e.2.value.toNat < 256 ^ 8) ∧
      ∃ rest, readBaseGlobals ⟨8, false, false, false, false, false, []⟩ (generateC globals false) =
        .ok (some ([("foo", .value 0x1234)], sentinel ++ rest)) := by
  intro engine globals
  have hfs : filterSymbols engine {} globals .empty = .ok globals := rfl
  have hnames : ∀ e ∈ globals.entries ++ StdMap.empty.entries, e.2.name ≠ "" ∧
      ∀ c ∈ e.2.name.toList, c ≠ '"' ∧ c ≠ '\\' ∧ c ≠ '\n' ∧ c ≠ '\r' ∧ c ≠ '\x00' := by decide
  have hval : ∀ e ∈ globals.entries ++ StdMap.empty.entries, e.2.value.toNat < 256 ^ 8 := by decide
  obtain ⟨-, -, rest, h⟩ := rtems_syms_table engine {} globals .empty globals hfs
    ⟨8, false, false, false, false, false, []⟩ ⟨.inr rfl, fun h => absurd h Bool.false_ne_true⟩ false
    hnames (fun _ => hval) (fun h => absurd h Bool.false_ne_true)
  exact ⟨hfs, hnames, hval, rest, h⟩

end RtemsTools.Syms
