import Mathlib.Data.List.Sort
import Mathlib.Data.String.Basic

/-! # What covoar and rtems-syms take from the C++ and rld libraries

`std::map`, which both tools keep their tables in, and `rld::error`, which both throw.
A map is its entries in strictly increasing key order, the order in which the C++
iterates it, and the structure carries that order. Proofs look at a map through
`find?` (`ext` says it determines the map) and `lowerBound`. The order laws come from
`LinearOrder`; the map decides keys with the key type's own `DecidableEq` and `<`, which
for `uint32_t` and `std::string` the kernel can evaluate.
-/

namespace RtemsTools

/-- `uint32_t` in the order that `std::map<uint32_t, ...>` sorts its keys by. -/
instance uint32LinearOrder : LinearOrder UInt32 where
  le_refl := UInt32.le_refl
  le_trans _ _ _ := UInt32.le_trans
  le_antisymm _ _ h₁ h₂ := UInt32.eq_of_toBitVec_eq (BitVec.le_antisymm h₁ h₂)
  le_total := UInt32.le_total
  lt_iff_le_not_le a b :=
    UInt32.not_le.symm.trans ⟨fun h => ⟨(UInt32.le_total a b).resolve_right h, h⟩, And.right⟩
  decidableLE := inferInstance
  decidableEq := inferInstance
  decidableLT := inferInstance

/-- `std::string`'s `operator<`, decided on the characters: Mathlib decides `<` on
strings through iterators, which the kernel does not evaluate. -/
instance (priority := high) String.decLtToList : DecidableRel (α := String) (· < ·) :=
  fun a b => decidable_of_iff (a.toList < b.toList) String.lt_iff_toList_lt.symm

/-- `rld::error`: what went wrong, and where. -/
structure RldError where
  what : String
  where' : String
deriving DecidableEq, Repr

/-! Code that can throw runs in `Except`; these say how a step that returned or threw goes
on. -/

@[simp] theorem except_ok_bind {ε α β : Type} (a : α) (f : α → Except ε β) :
    (Except.ok a >>= f) = f a := rfl

@[simp] theorem except_error_bind {ε α β : Type} (e : ε) (f : α → Except ε β) :
    (Except.error e >>= f) = .error e := rfl

/-! Code that can throw and changes state runs in `EStateM`; these run it a step at a time. -/

section EStateM

variable {ε σ α β : Type}

@[simp] theorem estate_run_pure (a : α) (s : σ) : (pure a : EStateM ε σ α).run s = .ok a s := rfl

@[simp] theorem estate_run_bind (x : EStateM ε σ α) (f : α → EStateM ε σ β) (s : σ) :
    (x >>= f).run s =
      match x.run s with
      | .ok a s' => (f a).run s'
      | .error e s' => .error e s' := rfl

@[simp] theorem estate_run_throw (e : ε) (s : σ) : (throw e : EStateM ε σ α).run s = .error e s := rfl

@[simp] theorem estate_run_modify (f : σ → σ) (s : σ) :
    (modify f : EStateM ε σ PUnit).run s = .ok ⟨⟩ (f s) := rfl

@[simp] theorem estate_run_get (s : σ) : (get : EStateM ε σ σ).run s = .ok s s := rfl

/-- A clean-up that only changes the state, as a destructor at the end of a scope: it runs
whether the body returned or threw, and the body's result stands. -/
@[simp] theorem estate_run_tryFinally_modify (x : EStateM ε σ α) (f : σ → σ) (s : σ) :
    (tryFinally x (modify f : EStateM ε σ PUnit)).run s =
      match x.run s with
      | .ok a s' => .ok a (f s')
      | .error e s' => .error e (f s') := by
  show tryFinally x (modify f : EStateM ε σ PUnit) s = match x s with
    | .ok a s' => .ok a (f s')
    | .error e s' => .error e (f s')
  cases hx : x s <;> simp only [tryFinally, MonadFinally.tryFinally', Functor.map, EStateM.map, hx] <;> rfl

end EStateM

structure StdMap (κ : Type) [LinearOrder κ] (α : Type) where
  entries : List (κ × α)
  sorted : entries.Pairwise fun a b => a.1 < b.1

namespace StdMap

variable {κ α : Type} [LinearOrder κ]

def empty : StdMap κ α := ⟨[], .nil⟩

def size (m : StdMap κ α) : Nat := m.entries.length

section Order

variable [DecidableRel (α := κ) (· < ·)]

/-- `m[k] = v` on the entry list: `(k, v)` goes before the first key above `k`, in place
of an entry of key `k`. -/
def assignList (k : κ) (v : α) : List (κ × α) → List (κ × α)
  | [] => [(k, v)]
  | e :: es =>
    if e.1 < k then e :: assignList k v es
    else if k < e.1 then (k, v) :: e :: es
    else (k, v) :: es

theorem mem_assignList {k : κ} {v : α} {e : κ × α} {l : List (κ × α)}
    (h : e ∈ assignList k v l) : e = (k, v) ∨ e ∈ l := by
  induction l with
  | nil => simpa [assignList] using h
  | cons e' es ih =>
    simp only [assignList] at h
    split_ifs at h <;> simp only [List.mem_cons] at h ⊢
    · rcases h with h | h
      · exact .inr (.inl h)
      · rcases ih h with h | h <;> simp [h]
    · exact h.elim .inl fun h => .inr h
    · exact h.elim .inl fun h => .inr (.inr h)

theorem assignList_sorted {k : κ} {v : α} {l : List (κ × α)}
    (h : l.Pairwise fun a b => a.1 < b.1) : (assignList k v l).Pairwise fun a b => a.1 < b.1 := by
  induction l with
  | nil => simp [assignList]
  | cons e es ih =>
    rw [List.pairwise_cons] at h
    simp only [assignList]
    split_ifs with h₁ h₂
    · -- `k` goes further on
      refine List.pairwise_cons.2 ⟨fun x hx => ?_, ih h.2⟩
      rcases mem_assignList hx with rfl | hx
      exacts [h₁, h.1 x hx]
    · -- `k` goes before `e`
      refine List.pairwise_cons.2 ⟨fun x hx => ?_, List.pairwise_cons.2 h⟩
      rcases List.mem_cons.1 hx with rfl | hx
      exacts [h₂, h₂.trans (h.1 x hx)]
    · -- `k` replaces `e`
      have he : e.1 = k := le_antisymm (not_lt.1 h₂) (not_lt.1 h₁)
      exact List.pairwise_cons.2 ⟨fun x hx => he ▸ h.1 x hx, h.2⟩

/-- `m[k] = v`. -/
def assign (m : StdMap κ α) (k : κ) (v : α) : StdMap κ α :=
  ⟨assignList k v m.entries, assignList_sorted m.sorted⟩

/-- `m.lower_bound (k)`: the first entry whose key is not below `k`. -/
def lowerBound (m : StdMap κ α) (k : κ) : Option (κ × α) :=
  m.entries.find? fun e => ¬ e.1 < k

theorem lowerBound_eq_none {m : StdMap κ α} {a : κ} :
    m.lowerBound a = none ↔ ∀ e ∈ m.entries, e.1 < a := by
  simp [lowerBound, List.find?_eq_none]

/-- The entry `lower_bound` finds is the least one whose key is not below `a`. -/
theorem lowerBound_eq_some {m : StdMap κ α} {a : κ} {e : κ × α} (h : m.lowerBound a = some e) :
    e ∈ m.entries ∧ a ≤ e.1 ∧ ∀ e' ∈ m.entries, a ≤ e'.1 → e.1 ≤ e'.1 := by
  obtain ⟨hp, as, bs, hl, has⟩ := List.find?_eq_some.1 h
  have hs := m.sorted
  rw [hl, List.pairwise_append, List.pairwise_cons] at hs
  refine ⟨hl ▸ by simp, by simpa using hp, fun e' he' ha => ?_⟩
  rw [hl, List.mem_append, List.mem_cons] at he'
  rcases he' with he' | rfl | he'
  · exact absurd ha (by simpa using has e' he')
  · exact le_rfl
  · exact (hs.2.1.1 _ he').le

theorem lowerBound_assignList (k a : κ) (v : α) (l : List (κ × α)) :
    (assignList k v l).find? (fun e => ¬ e.1 < a) =
      if ¬ k < a ∧ ∀ e, l.find? (fun e => ¬ e.1 < a) = some e → ¬ e.1 < k then some (k, v)
      else l.find? fun e => ¬ e.1 < a := by
  induction l with
  | nil => by_cases h : k < a <;> simp [assignList, h]
  | cons e es ih =>
    obtain ⟨k₀, v₀⟩ := e
    rcases lt_trichotomy k₀ k with h | rfl | h
    · -- `(k₀, v₀)` stays in front
      simp only [assignList, if_pos h, List.find?_cons]
      by_cases ha : k₀ < a
      · simp only [ha, not_true_eq_false, decide_False, ih]
      · simp [ha, h, not_le.2 h]
    · -- `(k₀, v₀)` is replaced
      by_cases ha : k₀ < a
      · simp [assignList, ha]
      · simp [assignList, ha, not_lt.1 ha]
    · -- `(k, v)` goes in front
      simp only [assignList, if_neg (not_lt.2 h.le), if_pos h, List.find?_cons]
      by_cases ha : k < a
      · simp [ha]
      · have hk₀ : a ≤ k₀ := (not_lt.1 ha).trans h.le
        simp [ha, not_lt.1 ha, hk₀, not_lt.2 hk₀, h.le]

/-- `m[k] = v` and `lower_bound`: the new entry is found where it is the least key not
below `a`; any other query finds what it found before. -/
theorem lowerBound_assign (m : StdMap κ α) (k a : κ) (v : α) :
    (m.assign k v).lowerBound a =
      if ¬ k < a ∧ ∀ e, m.lowerBound a = some e → ¬ e.1 < k then some (k, v) else m.lowerBound a :=
  lowerBound_assignList k a v m.entries

end Order

/-! ## Lookups -/

section Lookup

variable [DecidableEq κ]

/-- `m.find (k)`, with `none` for `m.end ()`. -/
def find? (m : StdMap κ α) (k : κ) : Option α :=
  (m.entries.find? fun e => e.1 = k).map Prod.snd

/-- `m.find (k)`, or `d` when there is no entry of key `k`. -/
def findD (m : StdMap κ α) (k : κ) (d : α) : α := (m.find? k).getD d

@[simp] theorem find?_empty (k : κ) : (empty : StdMap κ α).find? k = none := rfl

theorem find?_eq_some_iff {m : StdMap κ α} {k : κ} {v : α} :
    m.find? k = some v ↔ (k, v) ∈ m.entries := by
  obtain ⟨l, hl⟩ := m
  simp only [find?]
  induction l with
  | nil => simp
  | cons e es ih =>
    rw [List.pairwise_cons] at hl
    by_cases he : e.1 = k
    · obtain ⟨k', v'⟩ := e
      simp only at he
      subst he
      have hk : (k', v) ∉ es := fun h => lt_irrefl k' (hl.1 _ h)
      simp [List.find?_cons, hk, eq_comm]
    · have hk : (k, v) ≠ e := fun h => he (h ▸ rfl)
      simp [List.find?_cons, he, hk, ih hl.2]

theorem mem_entries {m : StdMap κ α} {e : κ × α} : e ∈ m.entries ↔ m.find? e.1 = some e.2 :=
  find?_eq_some_iff.symm

/-- Two maps with the same lookups are the same map. -/
theorem ext {m₁ m₂ : StdMap κ α} (h : ∀ k, m₁.find? k = m₂.find? k) : m₁ = m₂ := by
  have : IsAntisymm (κ × α) fun a b => a.1 < b.1 :=
    ⟨fun _ _ h₁ h₂ => absurd (h₁.trans h₂) (lt_irrefl _)⟩
  have : IsIrrefl (κ × α) fun a b => a.1 < b.1 := ⟨fun _ => lt_irrefl _⟩
  have hperm : m₁.entries.Perm m₂.entries :=
    (List.perm_ext_iff_of_nodup m₁.sorted.nodup m₂.sorted.nodup).2 fun e => by
      rw [mem_entries, mem_entries, h]
  obtain ⟨l₁, s₁⟩ := m₁
  obtain ⟨l₂, s₂⟩ := m₂
  simp only at hperm
  simp only [List.eq_of_perm_of_sorted hperm s₁ s₂]

theorem size_eq_zero {m : StdMap κ α} : m.size = 0 ↔ ∀ k, m.find? k = none := by
  simp only [size, List.length_eq_zero, find?, Option.map_eq_none', List.find?_eq_none]
  constructor
  · rintro h k e he
    simp [h] at he
  · intro h
    match hm : m.entries with
    | [] => rfl
    | e :: _ => simpa [hm] using h e.1

end Lookup

variable [DecidableEq κ] [DecidableRel (α := κ) (· < ·)]

theorem find?_assignList (k k' : κ) (v : α) (l : List (κ × α)) :
    ((assignList k v l).find? fun e => e.1 = k').map Prod.snd =
      if k' = k then some v else (l.find? fun e => e.1 = k').map Prod.snd := by
  induction l with
  | nil => by_cases h : k' = k <;> simp [assignList, h, eq_comm]
  | cons e es ih =>
    obtain ⟨k₀, v₀⟩ := e
    rcases lt_trichotomy k₀ k with h | rfl | h
    · -- `(k₀, v₀)` stays in front
      simp only [assignList, if_pos h, List.find?_cons]
      by_cases he : k₀ = k'
      · subst he; simp [ne_of_lt h]
      · simp [he, ih]
    · -- `(k₀, v₀)` is replaced
      simp only [assignList, lt_irrefl, if_false]
      by_cases he : k₀ = k'
      · subst he; simp
      · simp [he, Ne.symm he]
    · -- `(k, v)` goes in front
      simp only [assignList, if_neg (not_lt.2 h.le), if_pos h, List.find?_cons]
      by_cases he : k = k'
      · subst he; simp
      · simp [he, Ne.symm he, List.find?_cons]

@[simp] theorem find?_assign (m : StdMap κ α) (k k' : κ) (v : α) :
    (m.assign k v).find? k' = if k' = k then some v else m.find? k' :=
  find?_assignList k k' v m.entries

/-- Assignments to two different keys commute. -/
theorem assign_comm (m : StdMap κ α) {k k' : κ} (hk : k ≠ k') (v v' : α) :
    (m.assign k v).assign k' v' = (m.assign k' v').assign k v :=
  ext fun x => by
    by_cases h : x = k'
    · subst h
      simp [Ne.symm hk]
    · simp [h]

/-! ## Assigning a list of entries -/

section Fold

variable {β : Type} (key : β → κ) (val : β → α)

/-- `m[key x] = val x` for each `x` of a list, in order. -/
def assignAll (m : StdMap κ α) (xs : List β) : StdMap κ α :=
  xs.foldl (fun m x => m.assign (key x) (val x)) m

theorem mem_assignAll {m : StdMap κ α} {xs : List β} {e : κ × α}
    (h : e ∈ (m.assignAll key val xs).entries) : e ∈ m.entries ∨ ∃ x ∈ xs, key x = e.1 ∧ val x = e.2 := by
  induction xs generalizing m with
  | nil => exact .inl h
  | cons x xs ih =>
    rcases ih h with h | ⟨y, hy, hk, hv⟩
    · rw [mem_entries, find?_assign] at h
      split_ifs at h with hk
      · exact .inr ⟨x, List.mem_cons_self _ _, hk.symm, Option.some.inj h⟩
      · exact .inl (mem_entries.2 h)
    · exact .inr ⟨y, List.mem_cons_of_mem _ hy, hk, hv⟩

theorem find?_assignAll_ne_none_of {m : StdMap κ α} {xs : List β} {k : κ} (h : m.find? k ≠ none) :
    (m.assignAll key val xs).find? k ≠ none := by
  induction xs generalizing m with
  | nil => exact h
  | cons x xs ih => exact ih (by simp only [find?_assign]; split_ifs <;> simp [h])

theorem find?_assignAll_ne_none {m : StdMap κ α} {xs : List β} {x : β} (hx : x ∈ xs) :
    (m.assignAll key val xs).find? (key x) ≠ none := by
  induction xs generalizing m with
  | nil => simp at hx
  | cons y ys ih =>
    rcases List.mem_cons.1 hx with rfl | hx
    · exact find?_assignAll_ne_none_of key val (m := m.assign (key x) (val x)) (by simp)
    · exact ih hx

end Fold

/-- Copying the entries of `src` that `p` keeps into `m`, one `m[k] = v` each: a key of
`src` that is kept takes its value from `src`, every other key keeps its value. -/
theorem find?_foldl_assignIf (p : κ × α → Bool) (src m : StdMap κ α) (k : κ) :
    (src.entries.foldl (fun m e => if p e then m.assign e.1 e.2 else m) m).find? k =
      match src.find? k with
      | some v => if p (k, v) then some v else m.find? k
      | none => m.find? k := by
  obtain ⟨l, hl⟩ := src
  show (l.foldl _ m).find? k = match (l.find? fun e => e.1 = k).map Prod.snd with
    | some v => if p (k, v) then some v else m.find? k
    | none => m.find? k
  induction l generalizing m with
  | nil => rfl
  | cons e es ih =>
    obtain ⟨he, hes⟩ := List.pairwise_cons.1 hl
    rw [List.foldl_cons, ih _ hes]
    by_cases hk : e.1 = k
    · -- `k` is the key of `e`, and no later entry has it
      have hnone : (es.find? fun e => e.1 = k) = none :=
        List.find?_eq_none.2 fun x hx h => by
          have := he x hx
          rw [hk, of_decide_eq_true h] at this
          exact lt_irrefl k this
      obtain ⟨k', v⟩ := e
      simp only at hk
      subst hk
      by_cases hp : p (k', v) <;> simp [hnone, hp]
    · -- `e` is another key
      have hm : (if p e then m.assign e.1 e.2 else m).find? k = m.find? k := by
        split_ifs <;> simp [Ne.symm hk]
      rw [List.find?_cons_of_neg _ (by simpa using hk), hm]

end StdMap

end RtemsTools
