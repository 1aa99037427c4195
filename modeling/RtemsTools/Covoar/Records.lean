import RtemsTools.Covoar.SymbolTable

/-! # The symbol records of a run

What `info` holds after any run of `addSymbol` calls: the calls that returned, grouped by
name, in call order. The abstract state is that log of calls; `Invariant` ties it to
the table, and every call keeps it.
-/

namespace RtemsTools.Covoar

/-- The records a log of calls gives the name `n`, in call order. -/
def records (log : List Call) (n : String) : List SymbolInfo :=
  (log.filter (·.symbol = n)).map Call.info

/-- No two calls of the log give one name two lengths at one start. -/
def Consistent (log : List Call) : Prop :=
  ∀ d₁ ∈ log, ∀ d₂ ∈ log, d₁.symbol = d₂.symbol → d₁.start = d₂.start → d₁.length = d₂.length

/-- `info` holds exactly the records of the log, and no name an empty list. -/
structure Invariant (t : SymbolTable) (log : List Call) : Prop where
  represents : ∀ n, t.info.find? n = if records log n = [] then none else some (records log n)
  consistent : Consistent log

theorem records_append_single (log : List Call) (c : Call) (n : String) :
    records (log ++ [c]) n = records log n ++ if c.symbol = n then [c.info] else [] := by
  by_cases h : c.symbol = n <;> simp [records, List.filter_append, h]

theorem mem_records {log : List Call} {n : String} {r : SymbolInfo} :
    r ∈ records log n ↔ ∃ d ∈ log, d.symbol = n ∧ d.info = r := by
  simp [records, and_assoc]

theorem records_eq_nil {log : List Call} {n : String} : records log n = [] ↔ ∀ d ∈ log, d.symbol ≠ n := by
  simp [records, List.filter_eq_nil_iff]

namespace Invariant

variable {t : SymbolTable} {log : List Call}

theorem empty : Invariant SymbolTable.empty [] := ⟨fun _ => by simp [records, SymbolTable.empty], by simp [Consistent]⟩

theorem findD (h : Invariant t log) (n : String) : t.info.findD n [] = records log n := by
  rw [StdMap.findD, h.represents]
  split_ifs with hn <;> simp [hn]

/-- An entry of `info` is a name of the log with its records. -/
theorem mem_info (h : Invariant t log) {e : String × List SymbolInfo} :
    e ∈ t.info.entries ↔ records log e.1 ≠ [] ∧ e.2 = records log e.1 := by
  rw [StdMap.mem_entries, h.represents]
  by_cases hn : records log e.1 = []
  · simp [hn]
  · simpa [hn] using eq_comm

/-- A call throws exactly when the log gives its name another length at its start. -/
theorem throws_iff (h : Invariant t log) (c : Call) :
    t.throws c = true ↔ ∃ d ∈ log, d.symbol = c.symbol ∧ d.start = c.start ∧ d.length ≠ c.length := by
  rw [SymbolTable.throws_iff, h.findD]
  constructor
  · rintro ⟨_, hr, hst, hl⟩
    obtain ⟨d, hd, hs, rfl⟩ := mem_records.1 hr
    exact ⟨d, hd, hs, hst, hl⟩
  · rintro ⟨d, hd, hs, hst, hl⟩
    exact ⟨d.info, mem_records.2 ⟨d, hd, hs, rfl⟩, hst, hl⟩

theorem step (h : Invariant t log) (c : Call) :
    Invariant (t.step c) (log ++ if t.throws c then [] else [c]) := by
  have hinfo := SymbolTable.step_info t c
  by_cases hc : t.throws c
  · rw [if_pos hc] at hinfo
    simp only [hc, if_true, List.append_nil]
    exact ⟨fun n => hinfo ▸ h.represents n, h.consistent⟩
  · rw [if_neg hc] at hinfo
    have hok := fun d hd hs hst => not_not.1 fun hl => hc ((h.throws_iff c).2 ⟨d, hd, hs, hst, hl⟩)
    refine ⟨fun n => ?_, ?_⟩
    · simp only [hinfo, hc, if_false, Bool.false_eq_true, StdMap.find?_assign, h.findD,
        records_append_single]
      by_cases hn : n = c.symbol
      · subst hn; simp
      · simp only [if_neg hn, if_neg (Ne.symm hn), List.append_nil, h.represents n]
    · simp only [hc, Bool.false_eq_true, if_false, Consistent, List.mem_append, List.mem_singleton]
      rintro d₁ (hd₁ | rfl) d₂ (hd₂ | rfl) hs hst
      · exact h.consistent d₁ hd₁ d₂ hd₂ hs hst
      · exact hok d₁ hd₁ hs hst
      · exact (hok d₂ hd₂ hs.symm hst.symm).symm
      · rfl

/-- Along a run, the log grows by the calls that return. -/
theorem run (h : Invariant t log) (cs : List Call) : Invariant (t.run cs) (log ++ t.accepted cs) := by
  induction cs generalizing t log with
  | nil => simpa [SymbolTable.accepted] using h
  | cons c cs ih => simpa [SymbolTable.accepted] using ih (h.step c)

/-- A call throws only for a name the log has, so the log has every name a call used. -/
theorem names_accepted (h : Invariant t log) (cs : List Call) (n : String) :
    (∃ d ∈ log ++ t.accepted cs, d.symbol = n) ↔ (∃ d ∈ log, d.symbol = n) ∨ ∃ c ∈ cs, c.symbol = n := by
  induction cs generalizing t log with
  | nil => simp [SymbolTable.accepted]
  | cons c cs ih =>
    rw [SymbolTable.accepted, ← List.append_assoc, ih (h.step c)]
    by_cases hc : t.throws c
    · -- A call that throws has a name the log already has.
      obtain ⟨d, hd, hs, -⟩ := (h.throws_iff c).1 hc
      simp only [hc, if_true, List.append_nil]
      by_cases hn : c.symbol = n
      · exact iff_of_true (.inl ⟨d, hd, hs.trans hn⟩) (.inl ⟨d, hd, hs.trans hn⟩)
      · simp [hn]
    · simp [hc, or_and_right, exists_or, or_assoc]

/-- The first call of a new name never throws, so it opens the name's records. -/
theorem find_accepted (h : Invariant t log) {n : String} (hn : records log n = []) (cs : List Call) :
    (t.accepted cs).find? (·.symbol = n) = cs.find? (·.symbol = n) := by
  induction cs generalizing t log with
  | nil => rfl
  | cons c cs ih =>
    rw [SymbolTable.accepted]
    by_cases hs : c.symbol = n
    · have : t.throws c = false := by
        rw [Bool.eq_false_iff, ne_eq, h.throws_iff]
        rintro ⟨d, hd, hds, -⟩
        exact records_eq_nil.1 hn d hd (hds.trans hs)
      simp [this, hs]
    · have hn' : records (log ++ if t.throws c then [] else [c]) n = [] := by
        split <;> simp [records_append_single, hn, hs]
      rw [List.find?_cons_of_neg _ (by simpa using hs), ← ih (h.step c) hn']
      split <;> simp [hs]

end Invariant

/-- **The records of a run.** Over any run from a fresh table, with each throw caught: a
call throws exactly when an earlier call that returned gave its name another length at
its start; `getInfo` is `NULL` just for names no call used, and otherwise the records of
the calls of that name that returned, in call order, never empty and consistent; and
`getLength` is the length of the first call of the name. -/
theorem add_symbol_records (cs : List Call) :
    (∀ pre c post, cs = pre ++ c :: post →
      ((SymbolTable.empty.run pre).throws c = true ↔
        ∃ d ∈ SymbolTable.empty.accepted pre,
          d.symbol = c.symbol ∧ d.start = c.start ∧ d.length ≠ c.length)) ∧
    ∀ n, ((SymbolTable.empty.run cs).getInfo n = none ↔ ∀ c ∈ cs, c.symbol ≠ n) ∧
      ((∃ c ∈ cs, c.symbol = n) →
        (SymbolTable.empty.run cs).getInfo n = some (records (SymbolTable.empty.accepted cs) n) ∧
          records (SymbolTable.empty.accepted cs) n ≠ []) ∧
      (∀ recs, (SymbolTable.empty.run cs).getInfo n = some recs →
        ∀ r₁ ∈ recs, ∀ r₂ ∈ recs, r₁.startingAddress = r₂.startingAddress → r₁.length = r₂.length) ∧
      (SymbolTable.empty.run cs).getLength n = ((cs.find? (·.symbol = n)).map Call.length).getD 0 := by
  have hinv := Invariant.empty.run cs
  simp only [List.nil_append] at hinv
  have hnames : ∀ n, records (SymbolTable.empty.accepted cs) n = [] ↔ ∀ c ∈ cs, c.symbol ≠ n :=
    fun n => by simpa [records_eq_nil] using not_congr (Invariant.empty.names_accepted cs n)
  refine ⟨fun pre c post _ => by simpa using (Invariant.empty.run pre).throws_iff c, fun n => ?_⟩
  have hinfo : (SymbolTable.empty.run cs).getInfo n = _ := hinv.represents n
  refine ⟨?_, fun ⟨c, hc, hs⟩ => ?_, fun recs hrecs r₁ h₁ r₂ h₂ hst => ?_, ?_⟩
  · rw [hinfo, ← hnames]; split_ifs <;> simp_all
  · have hne : records (SymbolTable.empty.accepted cs) n ≠ [] := fun h => (hnames n).1 h c hc hs
    simp [hinfo, hne]
  · rw [hinfo] at hrecs
    split_ifs at hrecs
    cases hrecs
    obtain ⟨d₁, hd₁, hs₁, rfl⟩ := mem_records.1 h₁
    obtain ⟨d₂, hd₂, hs₂, rfl⟩ := mem_records.1 h₂
    exact hinv.consistent d₁ hd₁ d₂ hd₂ (hs₁.trans hs₂.symm) hst
  · have hfind := Invariant.empty.find_accepted (n := n) (by simp [records]) cs
    rw [SymbolTable.getLength, hinv.represents n, records, ← hfind]
    induction SymbolTable.empty.accepted cs with
    | nil => simp
    | cons d ds ih => by_cases hd : d.symbol = n <;> simp_all [Call.info]

/-- **A throw keeps the records but not the address map.** A call that throws leaves
`info`, so `getInfo` and `getLength`, as it was, but it has already filed its range
under `start + length - 1`, as a call that returns does. -/
theorem add_symbol_throw_effect (t : SymbolTable) (c : Call) (h : t.throws c = true) :
    (t.step c).info = t.info ∧ (t.step c).contents = t.contents.assign c.high c.entry :=
  ⟨by simp [SymbolTable.step_info, h], SymbolTable.step_contents t c⟩

theorem add_symbol_throw_effect_example :
    (SymbolTable.empty.step ⟨"f", 0, 1⟩).throws ⟨"f", 0, 2⟩ = true ∧
    ((SymbolTable.empty.step ⟨"f", 0, 1⟩).step ⟨"f", 0, 2⟩).info = (SymbolTable.empty.step ⟨"f", 0, 1⟩).info ∧
    ((SymbolTable.empty.step ⟨"f", 0, 1⟩).step ⟨"f", 0, 2⟩).contents =
      (SymbolTable.empty.step ⟨"f", 0, 1⟩).contents.assign 1 ⟨0, 1, "f"⟩ :=
  have h : (SymbolTable.empty.step ⟨"f", 0, 1⟩).throws ⟨"f", 0, 2⟩ = true := by decide
  ⟨h, add_symbol_throw_effect _ _ h⟩

/-- The range a failed call leaves behind answers lookups: `(f, 0, 2)` clashes with
`(f, 0, 1)` and throws, and `getSymbol 1`, `""` before, is `f` after. -/
theorem failed_add_symbol_changes_lookup :
    (SymbolTable.empty.step ⟨"f", 0, 1⟩).throws ⟨"f", 0, 2⟩ = true ∧
    (SymbolTable.empty.step ⟨"f", 0, 1⟩).getSymbol 1 = "" ∧
    ((SymbolTable.empty.step ⟨"f", 0, 1⟩).step ⟨"f", 0, 2⟩).getSymbol 1 = "f" := by
  decide

/-- **The dump, name by name.** After any run from a fresh table, `dumpSymbolTable` writes
each name a call used once, in increasing order of names and not in call order, and under
each name the lines of the records of its calls that returned, in call order. -/
theorem dump_symbol_table_order (cs : List Call) :
    ∃ names : List String, names.Pairwise (· < ·) ∧ (∀ n, n ∈ names ↔ ∃ c ∈ cs, c.symbol = n) ∧
      (SymbolTable.empty.run cs).dumpSymbolTable =
        names.flatMap fun n => (records (SymbolTable.empty.accepted cs) n).map (SymbolTable.dumpLine n) := by
  have hinv := Invariant.empty.run cs
  simp only [List.nil_append] at hinv
  refine ⟨(SymbolTable.empty.run cs).info.entries.map Prod.fst,
    List.pairwise_map.2 (SymbolTable.empty.run cs).info.sorted, fun n => ?_, ?_⟩
  · -- The names of `info` are those of the calls that returned: every name a call used.
    have hnames := Invariant.empty.names_accepted cs n
    simp only [List.nil_append, List.not_mem_nil, false_and, exists_false, false_or] at hnames
    rw [← hnames, List.mem_map]
    constructor
    · rintro ⟨e, he, rfl⟩
      simpa [records_eq_nil] using (hinv.mem_info.1 he).1
    · rintro ⟨d, hd, rfl⟩
      exact ⟨(d.symbol, records _ d.symbol), hinv.mem_info.2 ⟨fun h => records_eq_nil.1 h d hd rfl, rfl⟩, rfl⟩
  · -- Each entry of `info` holds the records of its name.
    rw [SymbolTable.dumpSymbolTable, List.flatMap_map]
    exact List.flatMap_congr fun ⟨n, recs⟩ he => congrArg _ (hinv.mem_info.1 he).2

end RtemsTools.Covoar
