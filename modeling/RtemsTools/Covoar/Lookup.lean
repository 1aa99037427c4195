import RtemsTools.Covoar.Records

/-! # Address lookups

`getSymbol` takes the first range whose key, its last address, is not below the query,
and answers its symbol if the range starts at or below the query. For ranges that are
not empty and end inside the address space the key is the range's last address, and
disjoint ranges answer every address correctly. Whatever the ranges, an answer comes from
a range whose start and key bound the query. A range of length 0, or one that runs past
`2^32`, gets a key below its start (one of length 0 at address 0 the key `0xFFFFFFFF`),
and the lookup breaks around it.
-/

namespace RtemsTools.Covoar

namespace Call

/-- Not empty, and inside the 32-bit address space. -/
def WellFormed (c : Call) : Prop := 1 ≤ c.length.toNat ∧ c.start.toNat + c.length.toNat ≤ UInt32.size

theorem WellFormed.high_toNat {c : Call} (h : c.WellFormed) :
    c.high.toNat = c.start.toNat + c.length.toNat - 1 := by
  obtain ⟨h₁, h₂⟩ := h
  simp only [UInt32.size] at h₂
  rw [high, UInt32.toNat_add_sub_one]
  omega

/-- A well-formed range covers an address just when its start and key bound it. -/
theorem WellFormed.covers_iff {c : Call} (h : c.WellFormed) {a : UInt32} :
    c.Covers a.toNat ↔ c.start ≤ a ∧ a ≤ c.high := by
  have := h.1
  simp only [Covers, ← UInt32.toNat_le_toNat, h.high_toNat]
  omega

theorem WellFormed.covers_high {c : Call} (h : c.WellFormed) : c.Covers c.high.toNat := by
  have := h.1
  simp only [Covers, h.high_toNat]
  omega

theorem WellFormed.covers_start {c : Call} (h : c.WellFormed) : c.Covers c.start.toNat :=
  ⟨le_rfl, by have := h.1; omega⟩

end Call

namespace SymbolTable

/-- The emptiness check of `getSymbol` only repeats what `lower_bound` finds. -/
theorem getSymbol_eq (t : SymbolTable) (a : UInt32) :
    t.getSymbol a =
      match t.contents.lowerBound a with
      | some (_, entry) => if entry.low ≤ a then entry.symbol else ""
      | none => "" := by
  unfold getSymbol
  split_ifs with h
  · have : t.contents.lowerBound a = none :=
      StdMap.lowerBound_eq_none.2 fun e he => by
        simp [StdMap.size, List.length_eq_zero.1 h] at he
    simp [this]
  · rfl

/-- Every range of the address map is the range of one of the calls. -/
theorem mem_run_contents {cs : List Call} {k : UInt32} {e : SymbolEntry}
    (h : (k, e) ∈ (empty.run cs).contents.entries) : ∃ c ∈ cs, c.high = k ∧ c.entry = e := by
  rw [run_contents] at h
  simpa [empty, StdMap.empty] using StdMap.mem_assignAll Call.high Call.entry h

/-- Every call keeps a range under its key. -/
theorem high_mem_run_contents {cs : List Call} {c : Call} (hc : c ∈ cs) :
    ∃ e, (c.high, e) ∈ (empty.run cs).contents.entries := by
  obtain ⟨e, he⟩ := Option.ne_none_iff_exists'.1
    (run_contents empty cs ▸ StdMap.find?_assignAll_ne_none Call.high Call.entry (m := empty.contents) hc)
  exact ⟨e, StdMap.mem_entries.2 he⟩

/-- What `lower_bound` finds in the map a run builds: nothing when every key is below
`a`, else the range of a call whose key is the least one not below `a`. -/
theorem lowerBound_run (cs : List Call) (a : UInt32) :
    ((empty.run cs).contents.lowerBound a = none ∧ ∀ c ∈ cs, c.high < a) ∨
    ∃ d ∈ cs, (empty.run cs).contents.lowerBound a = some (d.high, d.entry) ∧ a ≤ d.high ∧
      ∀ c ∈ cs, a ≤ c.high → d.high ≤ c.high := by
  cases hlb : (empty.run cs).contents.lowerBound a with
  | none =>
    refine .inl ⟨rfl, fun c hc => ?_⟩
    obtain ⟨e, he⟩ := high_mem_run_contents hc
    exact StdMap.lowerBound_eq_none.1 hlb _ he
  | some ke =>
    obtain ⟨hmem, hak, hleast⟩ := StdMap.lowerBound_eq_some hlb
    obtain ⟨d, hd, hk, he⟩ := mem_run_contents hmem
    refine .inr ⟨d, hd, by rw [hk, he], hk ▸ hak, fun c hc hac => hk ▸ ?_⟩
    obtain ⟨e, he⟩ := high_mem_run_contents hc
    exact hleast _ he hac

/-- Calls with another key leave what the map holds under `k`. -/
theorem find?_run_contents_of_ne (t : SymbolTable) {k : UInt32} {cs : List Call}
    (h : ∀ c ∈ cs, c.high ≠ k) : (t.run cs).contents.find? k = t.contents.find? k := by
  induction cs generalizing t with
  | nil => rfl
  | cons c cs ih =>
    simp only [List.mem_cons, forall_eq_or_imp] at h
    rw [run_cons, ih _ h.2, step_contents, StdMap.find?_assign, if_neg (Ne.symm h.1)]

/-- Under a key the map holds the range of the last call with that key. -/
theorem find?_run_contents_last {pre post : List Call} {c : Call} (h : ∀ d ∈ post, d.high ≠ c.high) :
    (empty.run (pre ++ c :: post)).contents.find? c.high = some c.entry := by
  rw [run_append, run_cons, find?_run_contents_of_ne _ h, step_contents, StdMap.find?_assign,
    if_pos rfl]

end SymbolTable

/-- **Lookups over disjoint ranges.** Add well-formed ranges to a fresh table, any two of
them disjoint or the same call: no call throws, and afterwards `getSymbol` answers each
address with the symbol of the range that holds it, and `""` where no range does. -/
theorem get_symbol_of_disjoint (cs : List Call) (hwf : ∀ c ∈ cs, c.WellFormed)
    (hdisj : ∀ c ∈ cs, ∀ d ∈ cs, c = d ∨ ∀ a, ¬ (c.Covers a ∧ d.Covers a)) :
    (∀ pre c post, cs = pre ++ c :: post → (SymbolTable.empty.run pre).throws c = false) ∧
    ∀ a : UInt32,
      (∀ c ∈ cs, c.Covers a.toNat → (SymbolTable.empty.run cs).getSymbol a = c.symbol) ∧
      ((∀ c ∈ cs, ¬ c.Covers a.toNat) → (SymbolTable.empty.run cs).getSymbol a = "") := by
  -- Two calls that share an address are the same call.
  have hsame : ∀ c ∈ cs, ∀ d ∈ cs, ∀ a, c.Covers a → d.Covers a → c = d := fun c hc d hd a h₁ h₂ =>
    (hdisj c hc d hd).resolve_right fun h => h a ⟨h₁, h₂⟩
  refine ⟨fun pre c post hcs => ?_, fun a => ⟨fun c hc hca => ?_, fun hnone => ?_⟩⟩
  · -- A clash needs an earlier call at the same start, which is the same call.
    have hc : c ∈ cs := hcs ▸ List.mem_append_right _ (List.mem_cons_self _ _)
    rw [Bool.eq_false_iff, ne_eq, (Invariant.empty.run pre).throws_iff]
    rintro ⟨d, hd, -, hst, hlen⟩
    have hd' : d ∈ cs := hcs ▸ List.mem_append_left _ (SymbolTable.mem_of_mem_accepted hd)
    exact hlen (congrArg Call.length
      (hsame d hd' c hc _ (hwf d hd').covers_start (hst ▸ (hwf c hc).covers_start)))
  · -- The range found is the first that does not end below `a`; it overlaps `c`'s.
    have hca' := (hwf c hc).covers_iff.1 hca
    rw [SymbolTable.getSymbol_eq]
    rcases SymbolTable.lowerBound_run cs a with ⟨-, hlt⟩ | ⟨d, hd, hlb, hak, hleast⟩
    · exact absurd (hlt c hc) (not_lt.2 hca'.2)
    · have hck : c.Covers d.high.toNat :=
        (hwf c hc).covers_iff.2 ⟨hca'.1.trans hak, hleast c hc hca'.2⟩
      obtain rfl := hsame d hd c hc _ (hwf d hd).covers_high hck
      simp [hlb, Call.entry, hca'.1]
  · -- A range found that starts at or below `a` would hold `a`.
    rw [SymbolTable.getSymbol_eq]
    rcases SymbolTable.lowerBound_run cs a with ⟨hlb, -⟩ | ⟨d, hd, hlb, hak, -⟩
    · simp [hlb]
    · have : ¬ d.start ≤ a := fun hs => hnone d hd ((hwf d hd).covers_iff.2 ⟨hs, hak⟩)
      simp [hlb, Call.entry, this]

theorem get_symbol_of_disjoint_example :
    (∀ c ∈ [⟨"foo", 0x1000, 16⟩, ⟨"bar", 0x2000, 8⟩], Call.WellFormed c) ∧
    (∀ c ∈ [⟨"foo", 0x1000, 16⟩, ⟨"bar", 0x2000, 8⟩], ∀ d ∈ [⟨"foo", 0x1000, 16⟩, ⟨"bar", 0x2000, 8⟩],
      c = d ∨ ∀ a, ¬ (Call.Covers c a ∧ Call.Covers d a)) ∧
    (SymbolTable.empty.run [⟨"foo", 0x1000, 16⟩, ⟨"bar", 0x2000, 8⟩]).getSymbol 0x1005 = "foo" := by
  have hwf : ∀ c ∈ [⟨"foo", 0x1000, 16⟩, ⟨"bar", 0x2000, 8⟩], Call.WellFormed c := by
    simp only [List.mem_cons, List.not_mem_nil, or_false, forall_eq_or_imp, forall_eq, Call.WellFormed]
    decide
  have hdisj : ∀ c ∈ [⟨"foo", 0x1000, 16⟩, ⟨"bar", 0x2000, 8⟩], ∀ d ∈ [⟨"foo", 0x1000, 16⟩, ⟨"bar", 0x2000, 8⟩],
      c = d ∨ ∀ a, ¬ (Call.Covers c a ∧ Call.Covers d a) := by
    simp only [List.mem_cons, List.not_mem_nil, or_false, forall_eq_or_imp, forall_eq, true_or,
      Call.Covers, true_and, and_true]
    exact ⟨.inr fun a h => by simp [UInt32.size] at h; omega, .inr fun a h => by simp [UInt32.size] at h; omega⟩
  exact ⟨hwf, hdisj, ((get_symbol_of_disjoint _ hwf hdisj).2 0x1005).1 ⟨"foo", 0x1000, 16⟩
    (List.mem_cons_self _ _) (by simp [Call.Covers, UInt32.size])⟩

/-- **Adding a disjoint range changes no other lookup**, when every range is well formed:
whether or not the call throws, `getSymbol` is unchanged outside the new range. -/
theorem get_symbol_frame (cs : List Call) (c : Call) (hwf : ∀ d ∈ c :: cs, d.WellFormed)
    (hdisj : ∀ d ∈ cs, ∀ a, ¬ (c.Covers a ∧ d.Covers a)) (a : UInt32) (ha : ¬ c.Covers a.toNat) :
    ((SymbolTable.empty.run cs).step c).getSymbol a = (SymbolTable.empty.run cs).getSymbol a := by
  have hc := hwf c (List.mem_cons_self _ _)
  rw [SymbolTable.getSymbol_eq, SymbolTable.getSymbol_eq, SymbolTable.step_contents,
    StdMap.lowerBound_assign]
  split_ifs with h
  · -- The new range is found: `a` lies below it.
    obtain ⟨hak, hleast⟩ := h
    have hlow : ¬ c.start ≤ a := fun hs => ha (hc.covers_iff.2 ⟨hs, not_lt.1 hak⟩)
    simp only [Call.entry, hlow, if_false]
    -- What was found before holds `c.start` if it starts at or below `a`.
    rcases SymbolTable.lowerBound_run cs a with ⟨hlb, -⟩ | ⟨d, hd, hlb, -, -⟩
    · simp [hlb]
    · have hdc : d.start ≤ a → d.Covers c.start.toNat := fun hs =>
        (hwf d (List.mem_cons_of_mem _ hd)).covers_iff.2 ⟨hs.trans (not_le.1 hlow).le,
          (hc.covers_iff.1 hc.covers_start).2.trans (not_lt.1 (hleast _ hlb))⟩
      have : ¬ d.start ≤ a := fun hs => hdisj d hd _ ⟨hc.covers_start, hdc hs⟩
      simp [hlb, Call.entry, this]
  · rfl

theorem get_symbol_frame_example :
    (∀ d ∈ [⟨"bar", 0x2000, 8⟩, ⟨"foo", 0x1000, 16⟩], Call.WellFormed d) ∧
    (∀ d ∈ [⟨"foo", 0x1000, 16⟩], ∀ a, ¬ (Call.Covers ⟨"bar", 0x2000, 8⟩ a ∧ Call.Covers d a)) ∧
    ¬ Call.Covers ⟨"bar", 0x2000, 8⟩ (0x1005 : UInt32).toNat ∧
    ((SymbolTable.empty.run [⟨"foo", 0x1000, 16⟩]).step ⟨"bar", 0x2000, 8⟩).getSymbol 0x1005 =
      (SymbolTable.empty.run [⟨"foo", 0x1000, 16⟩]).getSymbol 0x1005 := by
  have hwf : ∀ d ∈ [⟨"bar", 0x2000, 8⟩, ⟨"foo", 0x1000, 16⟩], Call.WellFormed d := by
    simp only [List.mem_cons, List.not_mem_nil, or_false, forall_eq_or_imp, forall_eq, Call.WellFormed]
    decide
  have hdisj : ∀ d ∈ [⟨"foo", 0x1000, 16⟩], ∀ a, ¬ (Call.Covers ⟨"bar", 0x2000, 8⟩ a ∧ Call.Covers d a) := by
    simp only [List.mem_singleton, forall_eq, Call.Covers]
    intro a h; simp [UInt32.size] at h; omega
  have ha : ¬ Call.Covers ⟨"bar", 0x2000, 8⟩ (0x1005 : UInt32).toNat := by simp [Call.Covers, UInt32.size]
  exact ⟨hwf, hdisj, ha, get_symbol_frame _ _ hwf hdisj _ ha⟩

/-- **A lookup answers only from a stored range.** After any run from a fresh table, with
ranges of any length, overlapping or not, `getSymbol` answers `""` or the symbol of a call
whose stored range, from its start to its key `start + length - 1` taken mod `2^32`, holds
the address. A range of length 0, or one that runs past `2^32`, has its key below its
start, so it is never the answer, unless it has length 0 at address 0: its key then wraps
to `0xFFFFFFFF`. -/
theorem get_symbol_sound (cs : List Call) (a : UInt32) :
    (SymbolTable.empty.run cs).getSymbol a = "" ∨
      ∃ c ∈ cs, (SymbolTable.empty.run cs).getSymbol a = c.symbol ∧ c.start ≤ a ∧ a ≤ c.high := by
  rw [SymbolTable.getSymbol_eq]
  rcases SymbolTable.lowerBound_run cs a with ⟨hlb, -⟩ | ⟨d, hd, hlb, hak, -⟩
  · simp [hlb]
  · by_cases hs : d.start ≤ a
    · exact .inr ⟨d, hd, by simp [hlb, Call.entry, hs], hs, hak⟩
    · simp [hlb, Call.entry, hs]

/-- **What a lookup answers, over any run.** After any run from a fresh table, with ranges
of any length, overlapping or not, and calls that threw among them: `getSymbol a` is `""`
when every key is below `a`; otherwise the last call among those whose key is the least
one not below `a` answers, with its symbol if its range starts at or below `a` and `""`
if not. A later call with the same key hides an earlier one. -/
theorem get_symbol_last_least (cs : List Call) (a : UInt32) :
    ((∀ c ∈ cs, c.high < a) → (SymbolTable.empty.run cs).getSymbol a = "") ∧
    ∀ pre c post, cs = pre ++ c :: post → a ≤ c.high → (∀ d ∈ cs, a ≤ d.high → c.high ≤ d.high) →
      (∀ d ∈ post, d.high ≠ c.high) →
      (SymbolTable.empty.run cs).getSymbol a = if c.start ≤ a then c.symbol else "" := by
  refine ⟨fun hlt => ?_, fun pre c post hcs hac hleast hlast => ?_⟩
  · rw [SymbolTable.getSymbol_eq]
    rcases SymbolTable.lowerBound_run cs a with ⟨hlb, -⟩ | ⟨d, hd, -, hak, -⟩
    · simp [hlb]
    · exact absurd (hlt d hd) (not_lt.2 hak)
  · have hc : c ∈ cs := hcs ▸ List.mem_append_right _ (List.mem_cons_self _ _)
    rw [SymbolTable.getSymbol_eq]
    rcases SymbolTable.lowerBound_run cs a with ⟨-, hlt⟩ | ⟨d, hd, hlb, hak, hdleast⟩
    · exact absurd (hlt c hc) (not_lt.2 hac)
    · -- Both keys are the least one not below `a`, and under it is the last call's range.
      have hk : d.high = c.high := le_antisymm (hdleast c hc hac) (hleast d hd hak)
      have hfind := StdMap.mem_entries.1 (StdMap.lowerBound_eq_some hlb).1
      rw [hk, hcs, SymbolTable.find?_run_contents_last hlast] at hfind
      have he : d.entry = c.entry := (Option.some.inj hfind).symm
      simp only [Call.entry, SymbolEntry.mk.injEq] at he
      simp [hlb, Call.entry, he.1, he.2.2]

theorem get_symbol_last_least_example :
    let cs : List Call := [⟨"foo", 0x1000, 16⟩, ⟨"bar", 0x1008, 8⟩]
    cs = [⟨"foo", 0x1000, 16⟩] ++ ⟨"bar", 0x1008, 8⟩ :: [] ∧ 0x1004 ≤ Call.high ⟨"bar", 0x1008, 8⟩ ∧
    (∀ d ∈ cs, 0x1004 ≤ d.high → Call.high ⟨"bar", 0x1008, 8⟩ ≤ d.high) ∧
    (∀ d ∈ ([] : List Call), d.high ≠ Call.high ⟨"bar", 0x1008, 8⟩) ∧
    (SymbolTable.empty.run cs).getSymbol 0x1004 =
      if Call.start ⟨"bar", 0x1008, 8⟩ ≤ 0x1004 then "bar" else "" := by
  intro cs
  have hleast : ∀ d ∈ cs, 0x1004 ≤ d.high → Call.high ⟨"bar", 0x1008, 8⟩ ≤ d.high := by decide
  exact ⟨rfl, by decide, hleast, by simp,
    (get_symbol_last_least cs 0x1004).2 [⟨"foo", 0x1000, 16⟩] _ [] rfl (by decide) hleast (by simp)⟩

/-- A symbol of length 0 right after `foo` is filed under `foo`'s key (`0x1010 + 0 - 1`
wraps to `0x100F`) and replaces it: `getSymbol 0x1005` answered `foo` before and `""`
after, though the new range holds no address. -/
theorem zero_length_symbol_hides_neighbour :
    (∀ a, ¬ Call.Covers ⟨"bar", 0x1010, 0⟩ a) ∧
    (SymbolTable.empty.run [⟨"foo", 0x1000, 16⟩]).throws ⟨"bar", 0x1010, 0⟩ = false ∧
    (SymbolTable.empty.run [⟨"foo", 0x1000, 16⟩]).getSymbol 0x1005 = "foo" ∧
    ((SymbolTable.empty.run [⟨"foo", 0x1000, 16⟩]).step ⟨"bar", 0x1010, 0⟩).getSymbol 0x1005 = "" :=
  ⟨fun a h => by simp [Call.Covers] at h; omega, by decide, by decide, by decide⟩

end RtemsTools.Covoar
