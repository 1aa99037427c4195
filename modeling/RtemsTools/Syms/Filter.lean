import RtemsTools.Rld

/-! # rtems-syms: the symbols and the filter (`rtems-syms.cpp`)

`symbol_filter` keeps the symbols whose demangled name one of its regular expressions
matches in full, or every symbol when it has none, and `main` runs it over the globals
and then the weaks into one map. `std::regex` is a parameter: whether a pattern
compiles, and `regex_match`.
-/

namespace RtemsTools.Syms

def STT_TLS : Nat := 6

def STB_GLOBAL : Nat := 1

def STB_WEAK : Nat := 2

/-- The fields of `rld::symbols::symbol` that rtems-syms reads. -/
structure Symbol where
  name : String
  demangled : String
  value : UInt64
  type : Nat
  binding : Nat
deriving DecidableEq, Repr

abbrev Symtab := StdMap String Symbol

/-- `std::regex` as rtems-syms uses it: whether `std::regex (re)` builds, rather than throwing
`std::regex_error`, and `std::regex_match (text, re)`, which matches the whole text. -/
structure RegexEngine where
  compiles : String → Bool
  fullMatch : String → String → Bool

/-- What rtems-syms throws: `rld::error`, or the `std::regex_error` of a pattern. -/
inductive SymsError
  | rld (e : RldError)
  | regex (pattern : String)

/-- `symbol_filter`: its expressions, in the order they were added. -/
structure SymbolFilter where
  expr : List String := []

namespace SymbolFilter

def add (f : SymbolFilter) (re : String) : SymbolFilter := ⟨f.expr ++ [re]⟩

def isSpace (c : Char) : Bool :=
  c = ' ' || c = '\t' || c = '\n' || c = '\x0b' || c = '\x0c' || c = '\r'

/-- `load`: each word of the file, `in >> re` after `in >> re`, is added in turn. -/
def load (f : SymbolFilter) (file : String) : SymbolFilter :=
  ((file.split isSpace).filter (· ≠ "")).foldl add f

/-- One expression's pass: each symbol it matches goes into the output under its key. -/
def matchInto (engine : RegexEngine) (re : String) (symbols out : Symtab) : Symtab :=
  symbols.entries.foldl (fun out sym =>
    if engine.fullMatch re sym.2.demangled then out.assign sym.1 sym.2 else out) out

def filter (engine : RegexEngine) (f : SymbolFilter) (symbols filtered : Symtab) :
    Except SymsError Symtab :=
  if f.expr.length > 0 then
    f.expr.foldlM (fun out re =>
      if engine.compiles re then .ok (matchInto engine re symbols out) else .error (.regex re))
      filtered
  else .ok (symbols.entries.foldl (fun out sym => out.assign sym.1 sym.2) filtered)

/-- Whether the filter keeps a symbol: any symbol when there is no expression, else one
whose demangled name an expression matches in full. -/
def Selects (engine : RegexEngine) (f : SymbolFilter) (sym : Symbol) : Prop :=
  f.expr = [] ∨ ∃ re ∈ f.expr, engine.fullMatch re sym.demangled

instance (engine : RegexEngine) (f : SymbolFilter) : DecidablePred (f.Selects engine) :=
  fun _ => inferInstanceAs (Decidable (_ ∨ _))

end SymbolFilter

/-- The filtering of `main`: the globals, then the weaks, into one map, which must not
be empty. -/
def filterSymbols (engine : RegexEngine) (f : SymbolFilter) (globals weaks : Symtab) :
    Except SymsError Symtab := do
  let fs ← f.filter engine globals .empty
  let fs ← f.filter engine weaks fs
  if fs.size = 0 then throw (.rld ⟨"no filtered symbols", "filter"⟩)
  pure fs

namespace SymbolFilter

variable (engine : RegexEngine)

theorem find?_matchInto (re : String) (symbols out : Symtab) (k : String) :
    (matchInto engine re symbols out).find? k =
      match symbols.find? k with
      | some sym => if engine.fullMatch re sym.demangled then some sym else out.find? k
      | none => out.find? k := by
  rw [matchInto, StdMap.find?_foldl_assignIf]
  cases symbols.find? k <;> rfl

theorem foldlM_matchInto (res : List String) (hc : ∀ re ∈ res, engine.compiles re)
    (symbols out : Symtab) :
    ∃ out', res.foldlM (fun out re =>
        if engine.compiles re then .ok (matchInto engine re symbols out) else .error (.regex re)) out =
        (.ok out' : Except SymsError Symtab) ∧
      ∀ k, out'.find? k =
        match symbols.find? k with
        | some sym => if ∃ re ∈ res, engine.fullMatch re sym.demangled then some sym else out.find? k
        | none => out.find? k := by
  induction res generalizing out with
  | nil => exact ⟨out, rfl, fun k => by cases symbols.find? k <;> simp⟩
  | cons re res ih =>
    obtain ⟨out', h, hk⟩ := ih (fun re' h => hc re' (List.mem_cons_of_mem _ h)) (matchInto engine re symbols out)
    refine ⟨out', by simpa [List.foldlM_cons, hc re (List.mem_cons_self _ _)] using h, fun k => ?_⟩
    rw [hk, find?_matchInto]
    cases symbols.find? k with
    | none => rfl
    | some sym => by_cases h₁ : engine.fullMatch re sym.demangled <;> simp [h₁]

/-- One call of `filter` when every expression compiles: each symbol of the table it
selects is put in under its key, and every other entry of the output stays. -/
theorem filter_eq_ok (f : SymbolFilter) (hc : ∀ re ∈ f.expr, engine.compiles re)
    (symbols filtered : Symtab) :
    ∃ out, f.filter engine symbols filtered = .ok out ∧
      ∀ k, out.find? k =
        match symbols.find? k with
        | some sym => if f.Selects engine sym then some sym else filtered.find? k
        | none => filtered.find? k := by
  by_cases he : f.expr = []
  · -- No expression: every symbol is copied.
    refine ⟨symbols.entries.foldl (fun out sym => out.assign sym.1 sym.2) filtered,
      by simp [filter, he], fun k => ?_⟩
    have := StdMap.find?_foldl_assignIf (fun _ => true) symbols filtered k
    simp only [if_true] at this
    rw [this]
    cases symbols.find? k <;> simp [Selects, he]
  · -- One pass per expression.
    obtain ⟨out, h, hk⟩ := foldlM_matchInto engine f.expr hc symbols filtered
    refine ⟨out, by simpa [filter, List.length_pos.2 he] using h, fun k => ?_⟩
    rw [hk]
    cases symbols.find? k <;> simp [Selects, he]

theorem filter_eq_error (f : SymbolFilter) {pre post : List String} {re : String}
    (hf : f.expr = pre ++ re :: post) (hpre : ∀ r ∈ pre, engine.compiles r)
    (hre : engine.compiles re = false) (symbols filtered : Symtab) :
    f.filter engine symbols filtered = .error (.regex re) := by
  obtain ⟨out, h, -⟩ := foldlM_matchInto engine pre hpre symbols filtered
  simp [filter, hf, List.foldlM_append, h, hre]

/-- **The filter overrides the output with the symbols it selects.** When every expression
compiles, `filter` leaves in the output the symbols of the table it selects, under their
keys, and every other entry as it was; so any two lists of the same expressions, in any
order and with any repeats, filter alike. -/
theorem filter_overrides (f : SymbolFilter) (hc : ∀ re ∈ f.expr, engine.compiles re)
    (symbols filtered : Symtab) :
    (∃ out, f.filter engine symbols filtered = .ok out ∧
      ∀ k, out.find? k =
        match symbols.find? k with
        | some sym => if f.Selects engine sym then some sym else filtered.find? k
        | none => filtered.find? k) ∧
    ∀ g : SymbolFilter, (∀ re, re ∈ g.expr ↔ re ∈ f.expr) →
      g.filter engine symbols filtered = f.filter engine symbols filtered := by
  refine ⟨filter_eq_ok engine f hc symbols filtered, fun g hg => ?_⟩
  obtain ⟨out₁, h₁, hk₁⟩ := filter_eq_ok engine g (fun re h => hc re ((hg re).1 h)) symbols filtered
  obtain ⟨out₂, h₂, hk₂⟩ := filter_eq_ok engine f hc symbols filtered
  have hsel : ∀ sym, g.Selects engine sym ↔ f.Selects engine sym := fun sym => by
    simp only [Selects, List.eq_nil_iff_forall_not_mem, hg]
  rw [h₁, h₂]
  exact congrArg _ (StdMap.ext fun k => by rw [hk₁, hk₂]; cases symbols.find? k <;> simp [hsel])

theorem filter_overrides_example :
    (∀ re ∈ ["foo", "bar"], RegexEngine.compiles ⟨fun _ => true, fun re text => re == text⟩ re) ∧
      SymbolFilter.filter ⟨fun _ => true, fun re text => re == text⟩ ⟨["bar", "foo", "bar"]⟩
          ⟨[("foo", ⟨"foo", "foo", 16, 2, STB_GLOBAL⟩)], List.pairwise_singleton _ _⟩ .empty =
        SymbolFilter.filter ⟨fun _ => true, fun re text => re == text⟩ ⟨["foo", "bar"]⟩
          ⟨[("foo", ⟨"foo", "foo", 16, 2, STB_GLOBAL⟩)], List.pairwise_singleton _ _⟩ .empty :=
  ⟨fun _ _ => rfl, (filter_overrides _ ⟨["foo", "bar"]⟩ (fun _ _ => rfl) _ _).2 ⟨["bar", "foo", "bar"]⟩
    fun re => by simp only [List.mem_cons, List.not_mem_nil, or_false]; tauto⟩

/-! ## Reading a filter file -/

section Words

variable {α : Type} (p : α → Bool)

theorem splitOnP_blanks {s : List α} (hs : ∀ c ∈ s, p c) (as : List α) :
    (s ++ as).splitOnP p = List.replicate s.length [] ++ as.splitOnP p := by
  induction s with
  | nil => rfl
  | cons c s ih =>
    simp only [List.mem_cons, forall_eq_or_imp] at hs
    simp [hs.1, ih hs.2, List.replicate_succ]

theorem filter_splitOnP_word [DecidableEq α] {w s : List α} (hw : w ≠ [] ∧ ∀ c ∈ w, p c = false)
    (hs : ∀ c ∈ s, p c) (as : List α) (hend : s ≠ [] ∨ as = []) :
    ((w ++ s ++ as).splitOnP p).filter (· ≠ []) = w :: (as.splitOnP p).filter (· ≠ []) := by
  have hw' : ∀ c ∈ w, ¬ p c := fun c hc => by simp [hw.2 c hc]
  cases s with
  | nil =>
    obtain rfl := hend.resolve_left (by simp)
    simp [List.splitOnP_eq_single p w hw', hw.1]
  | cons c s =>
    simp only [List.mem_cons, forall_eq_or_imp] at hs
    rw [List.append_assoc, List.cons_append, List.splitOnP_first p w hw' c hs.1, splitOnP_blanks p hs.2]
    simp [hw.1]

theorem filter_splitOnP_words [DecidableEq α] (ws : List (List α × List α))
    (hws : ∀ w ∈ ws, (w.1 ≠ [] ∧ ∀ c ∈ w.1, p c = false) ∧ ∀ c ∈ w.2, p c)
    (hsep : ∀ w ∈ ws.dropLast, w.2 ≠ []) :
    ((ws.flatMap fun w => w.1 ++ w.2).splitOnP p).filter (· ≠ []) = ws.map Prod.fst := by
  induction ws with
  | nil => simp
  | cons w ws ih =>
    simp only [List.mem_cons, forall_eq_or_imp] at hws
    have hend : w.2 ≠ [] ∨ ws.flatMap (fun w => w.1 ++ w.2) = [] := by
      cases ws with
      | nil => simp
      | cons w' ws => exact .inl (hsep w (by simp))
    have hsep' : ∀ w ∈ ws.dropLast, w.2 ≠ [] := fun w' h => hsep w' <| by
      cases ws with
      | nil => simp at h
      | cons w'' ws => exact List.mem_cons_of_mem _ h
    rw [List.flatMap_cons, filter_splitOnP_word p hws.1.1 hws.1.2 _ hend, ih hws.2 hsep', List.map_cons]

end Words

theorem foldl_add_expr (f : SymbolFilter) (ws : List String) : (ws.foldl add f).expr = f.expr ++ ws := by
  induction ws generalizing f with
  | nil => simp
  | cons w ws ih => simp [ih, add]

/-- **Loading a filter file.** A file of words without blanks, each followed by blanks
(the last may end the file), with any blanks before the first, adds the words in order. -/
theorem load_words (f : SymbolFilter) (lead : List Char) (ws : List (String × List Char))
    (hlead : ∀ c ∈ lead, isSpace c)
    (hws : ∀ w ∈ ws, (w.1 ≠ "" ∧ ∀ c ∈ w.1.toList, isSpace c = false) ∧ ∀ c ∈ w.2, isSpace c)
    (hsep : ∀ w ∈ ws.dropLast, w.2 ≠ []) :
    (f.load (String.mk (lead ++ ws.flatMap fun w => w.1.toList ++ w.2))).expr =
      f.expr ++ ws.map Prod.fst := by
  have hne : ((fun w => decide (w ≠ "")) ∘ String.mk) = fun l : List Char => decide (l ≠ []) := by
    funext l; simp [String.ext_iff]
  have hwords := filter_splitOnP_words isSpace (ws.map fun w => (w.1.toList, w.2))
    (fun _ hw => by
      obtain ⟨v, hv, rfl⟩ := List.mem_map.1 hw
      exact ⟨⟨fun h => (hws v hv).1.1 (String.ext h), (hws v hv).1.2⟩, (hws v hv).2⟩)
    (fun _ hw => by
      obtain ⟨v, hv, rfl⟩ := List.mem_map.1 (List.map_dropLast .. ▸ hw)
      exact hsep v hv)
  rw [load, foldl_add_expr, String.split_of_valid, List.filter_map, hne]
  simp only [List.flatMap_map] at hwords
  rw [show (String.mk _).data = _ from rfl, splitOnP_blanks isSpace hlead, List.filter_append, hwords]
  simp [List.filter_eq_nil_iff]

theorem load_words_example :
    (∀ c ∈ [' '], isSpace c) ∧
    (∀ w ∈ [("foo", ['\n']), ("bar.*", [])],
      (w.1 ≠ "" ∧ ∀ c ∈ w.1.toList, isSpace c = false) ∧ ∀ c ∈ w.2, isSpace c) ∧
    (∀ w ∈ ([("foo", ['\n']), ("bar.*", [])] : List (String × List Char)).dropLast, w.2 ≠ []) ∧
    (SymbolFilter.load {} " foo\nbar.*").expr = ["foo", "bar.*"] := by
  have hlead : ∀ c ∈ [' '], isSpace c := by decide
  have hws : ∀ w ∈ [("foo", ['\n']), ("bar.*", [])],
      (w.1 ≠ "" ∧ ∀ c ∈ w.1.toList, isSpace c = false) ∧ ∀ c ∈ w.2, isSpace c := by decide
  have hsep : ∀ w ∈ ([("foo", ['\n']), ("bar.*", [])] : List (String × List Char)).dropLast,
      w.2 ≠ [] := by decide
  exact ⟨hlead, hws, hsep, load_words {} [' '] _ hlead hws hsep⟩

end SymbolFilter

/-! ## The filtering of `main` -/

section Main

variable (engine : RegexEngine) (f : SymbolFilter) (globals weaks : Symtab)

/-- `main`'s filtering when every expression compiles: the two passes leave a symbol under
its key when the filter selects it and no selected weak symbol has that key, and the
result stands unless it is empty. -/
theorem filterSymbols_eq (hc : ∀ re ∈ f.expr, engine.compiles re) :
    ∃ fs, filterSymbols engine f globals weaks =
        (if fs.size = 0 then .error (.rld ⟨"no filtered symbols", "filter"⟩) else .ok fs) ∧
      ∀ k sym, fs.find? k = some sym ↔ f.Selects engine sym ∧
        (weaks.find? k = some sym ∨
          globals.find? k = some sym ∧ ∀ w, weaks.find? k = some w → ¬ f.Selects engine w) := by
  obtain ⟨g, hg, hgk⟩ := SymbolFilter.filter_eq_ok engine f hc globals .empty
  obtain ⟨fs, hfs, hk⟩ := SymbolFilter.filter_eq_ok engine f hc weaks g
  refine ⟨fs, ?_, fun k sym => ?_⟩
  · simp only [filterSymbols, hg, hfs, except_ok_bind]
    split_ifs <;> rfl
  -- By the two lookups: a selected weak symbol wins, else a selected global one.
  rw [hk, hgk]
  cases weaks.find? k <;> cases globals.find? k <;> aesop

theorem filterSymbols_eq_error {pre post : List String} {re : String}
    (hf : f.expr = pre ++ re :: post) (hpre : ∀ r ∈ pre, engine.compiles r)
    (hre : engine.compiles re = false) :
    filterSymbols engine f globals weaks = .error (.regex re) := by
  simp [filterSymbols, SymbolFilter.filter_eq_error engine f hf hpre hre]

theorem compiles_of_filterSymbols_eq_ok {fs : Symtab} (h : filterSymbols engine f globals weaks = .ok fs) :
    ∀ re ∈ f.expr, engine.compiles re := by
  cases hfind : f.expr.find? (!engine.compiles ·) with
  | none => simpa using List.find?_eq_none.1 hfind
  | some re =>
    obtain ⟨hre, pre, post, hf, hpre⟩ := List.find?_eq_some.1 hfind
    rw [filterSymbols_eq_error engine f globals weaks hf (by simpa using hpre) (by simpa using hre)] at h
    cases h

theorem size_eq_zero_iff_of_find? {fs : Symtab} (hk : ∀ k sym, fs.find? k = some sym ↔
      f.Selects engine sym ∧ (weaks.find? k = some sym ∨
        globals.find? k = some sym ∧ ∀ w, weaks.find? k = some w → ¬ f.Selects engine w)) :
    fs.size = 0 ↔ ∀ sym ∈ globals.entries ++ weaks.entries, ¬ f.Selects engine sym.2 := by
  simp only [StdMap.size_eq_zero, Option.eq_none_iff_forall_not_mem, Option.mem_def, hk,
    List.mem_append, StdMap.mem_entries, Prod.forall]
  constructor
  · intro h k sym hmem hsel
    by_cases hw : ∃ w, weaks.find? k = some w ∧ f.Selects engine w
    · obtain ⟨w, hw, hsw⟩ := hw
      exact h k w ⟨hsw, .inl hw⟩
    · push_neg at hw
      rcases hmem with hg | hw'
      exacts [h k sym ⟨hsel, .inr ⟨hg, hw⟩⟩, h k sym ⟨hsel, .inl hw'⟩]
  · rintro h k sym ⟨hsel, hw | ⟨hg, -⟩⟩
    exacts [h k sym (.inr hw) hsel, h k sym (.inl hg) hsel]

theorem mem_entries_of_find? {fs : Symtab} (hk : ∀ k sym, fs.find? k = some sym ↔
      f.Selects engine sym ∧ (weaks.find? k = some sym ∨
        globals.find? k = some sym ∧ ∀ w, weaks.find? k = some w → ¬ f.Selects engine w)) :
    ∀ e ∈ fs.entries, e ∈ globals.entries ++ weaks.entries := fun ⟨k, sym⟩ he => by
  obtain ⟨-, hw | ⟨hg, -⟩⟩ := (hk k sym).1 (StdMap.mem_entries.1 he)
  exacts [List.mem_append_right _ (StdMap.mem_entries.2 hw),
    List.mem_append_left _ (StdMap.mem_entries.2 hg)]

theorem filterSymbols_eq_regex_iff :
    (∃ re, filterSymbols engine f globals weaks = .error (.regex re)) ↔
      ∃ re ∈ f.expr, engine.compiles re = false := by
  constructor
  · rintro ⟨re, h⟩
    by_contra hc
    push_neg at hc
    obtain ⟨fs, hrun, -⟩ := filterSymbols_eq engine f globals weaks fun re h => by simpa using hc re h
    rw [hrun] at h
    split_ifs at h
    cases h
  · rintro ⟨re, hre, hc⟩
    cases hfind : f.expr.find? (!engine.compiles ·) with
    | none => simpa [hc] using List.find?_eq_none.1 hfind re hre
    | some re' =>
      obtain ⟨hre', pre, post, hf, hpre⟩ := List.find?_eq_some.1 hfind
      exact ⟨re', filterSymbols_eq_error engine f globals weaks hf (by simpa using hpre) (by simpa using hre')⟩

/-- The one `rld::error` of the filtering is `no filtered symbols`: every expression
compiled and no symbol of either table is selected. -/
theorem filterSymbols_eq_rld {e : RldError} (h : filterSymbols engine f globals weaks = .error (.rld e)) :
    e = ⟨"no filtered symbols", "filter"⟩ ∧ (∀ re ∈ f.expr, engine.compiles re) ∧
      ∀ sym ∈ globals.entries ++ weaks.entries, ¬ f.Selects engine sym.2 := by
  by_cases hc : ∀ re ∈ f.expr, engine.compiles re
  · obtain ⟨fs, hrun, hk⟩ := filterSymbols_eq engine f globals weaks hc
    rw [hrun] at h
    split_ifs at h with h0
    cases h
    exact ⟨rfl, hc, (size_eq_zero_iff_of_find? engine f globals weaks hk).1 h0⟩
  · -- A pattern that does not compile throws a `std::regex_error` instead.
    obtain ⟨re, hre⟩ := (filterSymbols_eq_regex_iff engine f globals weaks).2 (by simpa using hc)
    cases hre.symm.trans h

/-- **The filtering of `main`.** When every expression compiles, `main` keeps under each
name the weak symbol of that name if the filter selects it, else the global one if the
filter selects that; it stops with `no filtered symbols` just when the filter selects no
symbol of either table. An expression that does not compile stops it with that
expression's `std::regex_error`. -/
theorem filter_symbols_spec :
    ((∀ re ∈ f.expr, engine.compiles re) →
      (∀ fs, filterSymbols engine f globals weaks = .ok fs →
        ∀ k sym, fs.find? k = some sym ↔ f.Selects engine sym ∧
          (weaks.find? k = some sym ∨
            globals.find? k = some sym ∧ ∀ w, weaks.find? k = some w → ¬ f.Selects engine w)) ∧
      (∀ e, filterSymbols engine f globals weaks = .error e ↔
        e = .rld ⟨"no filtered symbols", "filter"⟩ ∧
          ∀ sym ∈ globals.entries ++ weaks.entries, ¬ f.Selects engine sym.2)) ∧
    ∀ pre re post, f.expr = pre ++ re :: post → (∀ r ∈ pre, engine.compiles r) →
      engine.compiles re = false → filterSymbols engine f globals weaks = .error (.regex re) := by
  refine ⟨fun hc => ?_, fun _ _ _ hf hpre hre => filterSymbols_eq_error engine f globals weaks hf hpre hre⟩
  obtain ⟨fs, hrun, hk⟩ := filterSymbols_eq engine f globals weaks hc
  have hempty := size_eq_zero_iff_of_find? engine f globals weaks hk
  refine ⟨fun fs' h => ?_, fun e => ?_⟩
  · rw [hrun] at h
    split_ifs at h
    cases h
    exact hk
  · rw [hrun]
    split_ifs with h0
    · exact ⟨fun h => ⟨(Except.error.inj h).symm, hempty.1 h0⟩, fun ⟨he, _⟩ => he ▸ rfl⟩
    · exact ⟨fun h => (by cases h), fun ⟨_, hp⟩ => absurd (hempty.2 hp) h0⟩

end Main

end RtemsTools.Syms
