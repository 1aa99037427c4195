import RtemsTools.Rld
import Mathlib.Data.String.Basic

/-! # covoar's `SymbolTable` (`SymbolTable.cc`)

Two maps: `contents`, from the last address of a range to the range and its symbol,
and `info`, from a symbol to the places it is defined. `addSymbol` writes the address
map before it checks the lengths, so a call that throws has already changed it: the
model is a state with exceptions (`EStateM`), whose error result keeps the state at
the throw.
-/

namespace RtemsTools


namespace UInt32

@[simp] theorem toNat_le_toNat {a b : UInt32} : a.toNat ≤ b.toNat ↔ a ≤ b := .rfl

/-- `start + length - 1` as `uint32_t` computes it. -/
theorem toNat_add_sub_one (a b : UInt32) :
    (a + b - 1).toNat = (a.toNat + b.toNat + 4294967295) % 4294967296 := by
  show (a.toBitVec + b.toBitVec - 1#32).toNat = _
  simp only [BitVec.toNat_sub, BitVec.toNat_add, BitVec.toNat_ofNat]
  have := a.toNat_lt_size
  have := b.toNat_lt_size
  simp only [UInt32.size, UInt32.toNat] at *
  omega

end UInt32

namespace Covoar

/-- `symbol_entry_t`: a range of the address map. -/
structure SymbolEntry where
  low : UInt32
  high : UInt32
  symbol : String
deriving DecidableEq, Repr

/-- `symbolInfo_t`: one place where a symbol is defined. -/
structure SymbolInfo where
  startingAddress : UInt32
  length : UInt32
deriving DecidableEq, Repr

structure SymbolTable where
  contents : StdMap UInt32 SymbolEntry
  info : StdMap String (List SymbolInfo)

namespace SymbolTable

/-- `SymbolTable ()`: both maps empty. -/
def empty : SymbolTable := ⟨.empty, .empty⟩

/-- The error of `addSymbol` for a second length at one start. -/
def differentLengths (symbol : String) (old new : UInt32) : RldError :=
  ⟨"Different lengths for the symbol " ++ symbol ++ " (" ++ toString old ++ " and " ++
    toString new ++ ")", "SymbolTable::addSymbol"⟩

/-- The loop of `addSymbol` over the symbol's records: a record at `start` with another
length throws. -/
def checkLengths (symbol : String) (start length : UInt32) :
    List SymbolInfo → Except RldError Unit
  | [] => .ok ()
  | symData :: rest =>
    if symData.startingAddress ≠ start then checkLengths symbol start length rest
    else if symData.length ≠ length then .error (differentLengths symbol symData.length length)
    else checkLengths symbol start length rest

/-- `info[symbol]` makes an empty list for a new name; the `push_back` that follows the
loop always fills it, since a name without records cannot throw, so the model writes
the list once. -/
def addSymbol (symbol : String) (start length : UInt32) : EStateM RldError SymbolTable Unit := do
  -- Add an entry to the address map.
  let end' := start + length - 1
  modify fun t => { t with contents := t.contents.assign end' ⟨start, end', symbol⟩ }
  -- Add an entry to the symbol information map.
  let records := (← get).info.findD symbol []
  match checkLengths symbol start length records with
  | .error e => throw e
  | .ok () => modify fun t => { t with info := t.info.assign symbol (records ++ [⟨start, length⟩]) }

/-- `getInfo`: the records of a symbol, `NULL` for an unknown one. -/
def getInfo (t : SymbolTable) (symbol : String) : Option (List SymbolInfo) := t.info.find? symbol

/-- `getLength`: the length of the first record, 0 for an unknown symbol. `front ()` of an
empty list is undefined in C++ and 0 here; `info` never holds an empty list. -/
def getLength (t : SymbolTable) (symbol : String) : UInt32 :=
  match t.info.find? symbol with
  | some (front :: _) => front.length
  | _ => 0

def getSymbol (t : SymbolTable) (address : UInt32) : String :=
  -- Ensure that the symbol table is not empty.
  if t.contents.size = 0 then ""
  else
    -- Find the first entry whose end address is not below the address.
    match t.contents.lowerBound address with
    | some (_, entry) => if entry.low ≤ address then entry.symbol else ""
    | none => ""

/-- The line `dumpSymbolTable` writes for one record. -/
def dumpLine (name : String) (r : SymbolInfo) : String :=
  name ++ ":\tStarting address = 0x" ++ String.mk (Nat.toDigits 16 r.startingAddress.toNat) ++
    "\tLength = " ++ toString r.length

/-- `dumpSymbolTable`: the lines it writes to `std::cerr`, in the order of `info`. -/
def dumpSymbolTable (t : SymbolTable) : List String :=
  t.info.entries.flatMap fun (name, records) => records.map (dumpLine name)

/-! ## One call -/

theorem addSymbol_run (symbol : String) (start length : UInt32) (t : SymbolTable) :
    (addSymbol symbol start length).run t =
      let t' := { t with contents := t.contents.assign (start + length - 1) ⟨start, start + length - 1, symbol⟩ }
      match checkLengths symbol start length (t.info.findD symbol []) with
      | .error e => .error e t'
      | .ok () => .ok () { t' with info := t.info.assign symbol (t.info.findD symbol [] ++ [⟨start, length⟩]) } := by
  cases h : checkLengths symbol start length (t.info.findD symbol []) <;> simp [addSymbol, h]

theorem checkLengths_eq_ok {symbol : String} {start length : UInt32} {records : List SymbolInfo} :
    checkLengths symbol start length records = .ok () ↔
      ∀ r ∈ records, r.startingAddress = start → r.length = length := by
  induction records with
  | nil => simp [checkLengths]
  | cons r rs ih => by_cases h₁ : r.startingAddress = start <;> by_cases h₂ : r.length = length <;> simp [checkLengths, h₁, h₂, ih]

/-- The error names the symbol, the length of the first clashing record and the new one. -/
theorem checkLengths_eq_error {symbol : String} {start length : UInt32} {records : List SymbolInfo}
    {e : RldError} (h : checkLengths symbol start length records = .error e) :
    ∃ r ∈ records, r.startingAddress = start ∧ r.length ≠ length ∧
      e = differentLengths symbol r.length length := by
  induction records with
  | nil => simp [checkLengths] at h
  | cons r rs ih =>
    simp only [checkLengths] at h
    split_ifs at h with h₁ h₂
    · obtain ⟨r', hr', h⟩ := ih h
      exact ⟨r', List.mem_cons_of_mem _ hr', h⟩
    · exact ⟨r, List.mem_cons_self _ _, not_not.1 h₁, h₂, (Except.error.inj h).symm⟩
    · obtain ⟨r', hr', h⟩ := ih h
      exact ⟨r', List.mem_cons_of_mem _ hr', h⟩

end SymbolTable

/-! ## Runs of calls -/

/-- One `addSymbol (symbol, start, length)` call. -/
structure Call where
  symbol : String
  start : UInt32
  length : UInt32
deriving DecidableEq, Repr

namespace Call

/-- The key of the call's range in the address map: `start + length - 1` in `uint32_t`. -/
def high (c : Call) : UInt32 := c.start + c.length - 1

def entry (c : Call) : SymbolEntry := ⟨c.start, c.high, c.symbol⟩

def info (c : Call) : SymbolInfo := ⟨c.start, c.length⟩

/-- The addresses of the call's range, `start ≤ a < start + length` over unbounded integers. -/
def Covers (c : Call) (a : Nat) : Prop := c.start.toNat ≤ a ∧ a < c.start.toNat + c.length.toNat

end Call

namespace SymbolTable

def throws (t : SymbolTable) (c : Call) : Bool :=
  match (addSymbol c.symbol c.start c.length).run t with
  | .ok .. => false
  | .error .. => true

/-- The table after a call; the caller catches a throw and keeps the table. -/
def step (t : SymbolTable) (c : Call) : SymbolTable :=
  match (addSymbol c.symbol c.start c.length).run t with
  | .ok _ t' => t'
  | .error _ t' => t'

def run (t : SymbolTable) (cs : List Call) : SymbolTable := cs.foldl step t

/-- The calls of a run that returned normally, in call order. -/
def accepted : SymbolTable → List Call → List Call
  | _, [] => []
  | t, c :: cs => (if t.throws c then [] else [c]) ++ accepted (t.step c) cs

theorem throws_iff {t : SymbolTable} {c : Call} :
    t.throws c = true ↔
      ∃ r ∈ t.info.findD c.symbol [], r.startingAddress = c.start ∧ r.length ≠ c.length := by
  rw [throws, addSymbol_run]
  cases h : checkLengths c.symbol c.start c.length (t.info.findD c.symbol [])
  · simpa using (checkLengths_eq_error h).imp fun _ ⟨hr, h₁, h₂, _⟩ => ⟨hr, h₁, h₂⟩
  · simpa using checkLengths_eq_ok.1 h

/-- Whether or not it throws, a call files its range under `high`. -/
@[simp] theorem step_contents (t : SymbolTable) (c : Call) :
    (t.step c).contents = t.contents.assign c.high c.entry := by
  simp only [step, addSymbol_run]
  cases checkLengths c.symbol c.start c.length (t.info.findD c.symbol []) <;> rfl

theorem step_info (t : SymbolTable) (c : Call) :
    (t.step c).info =
      if t.throws c then t.info else t.info.assign c.symbol (t.info.findD c.symbol [] ++ [c.info]) := by
  simp only [step, throws, addSymbol_run]
  cases checkLengths c.symbol c.start c.length (t.info.findD c.symbol []) <;> rfl

@[simp] theorem run_nil (t : SymbolTable) : t.run [] = t := rfl

@[simp] theorem run_cons (t : SymbolTable) (c : Call) (cs : List Call) :
    t.run (c :: cs) = (t.step c).run cs := rfl

theorem run_append (t : SymbolTable) (cs ds : List Call) : t.run (cs ++ ds) = (t.run cs).run ds :=
  List.foldl_append _ _ _ _

theorem run_contents (t : SymbolTable) (cs : List Call) :
    (t.run cs).contents = t.contents.assignAll Call.high Call.entry cs := by
  induction cs generalizing t with
  | nil => rfl
  | cons c cs ih => rw [run_cons, ih, step_contents]; rfl

theorem mem_of_mem_accepted {t : SymbolTable} {cs : List Call} {c : Call} (h : c ∈ t.accepted cs) :
    c ∈ cs := by
  induction cs generalizing t with
  | nil => simp [accepted] at h
  | cons d ds ih =>
    simp only [accepted, List.mem_append] at h
    rcases h with h | h
    · split_ifs at h <;> simp_all
    · exact List.mem_cons_of_mem _ (ih h)

/-! ## Calls that touch different entries -/

theorem ext {t t' : SymbolTable} (h₁ : t.contents = t'.contents) (h₂ : t.info = t'.info) : t = t' := by
  cases t; cases t'; simp_all

/-- A call leaves the records of every other name. -/
theorem findD_step_info (t : SymbolTable) {c : Call} {n : String} (h : c.symbol ≠ n) :
    (t.step c).info.findD n [] = t.info.findD n [] := by
  rw [step_info]
  split_ifs <;> simp [StdMap.findD, Ne.symm h]

/-- Whether a call throws does not depend on a call of another name before it. -/
theorem throws_step (t : SymbolTable) {c d : Call} (h : d.symbol ≠ c.symbol) :
    (t.step d).throws c = t.throws c :=
  Bool.eq_iff_iff.2 (by rw [throws_iff, throws_iff, findD_step_info t h])

/-- Two calls of different names and keys commute. -/
theorem step_comm (t : SymbolTable) {c d : Call} (hs : c.symbol ≠ d.symbol) (hk : c.high ≠ d.high) :
    (t.step c).step d = (t.step d).step c := by
  refine ext (by simp only [step_contents, StdMap.assign_comm _ hk]) ?_
  rw [step_info, step_info (t.step d), throws_step t hs, throws_step t (Ne.symm hs),
    findD_step_info t hs, findD_step_info t (Ne.symm hs), step_info, step_info]
  cases t.throws c <;> cases t.throws d <;> simp only [if_true, if_false, Bool.false_eq_true]
  exact StdMap.assign_comm _ hs _ _

/-- **The order of independent calls does not matter.** From any table, two runs of the same
calls in different orders, no two of them with one name or one key `start + length - 1`,
give the same table, whichever calls throw: the same address map and the same records, so
every `getSymbol`, `getInfo` and `getLength` agree. -/
theorem run_perm (t : SymbolTable) {cs cs' : List Call} (h : cs.Perm cs')
    (hd : cs.Pairwise fun c d => c.symbol ≠ d.symbol ∧ c.high ≠ d.high) : t.run cs = t.run cs' := by
  induction h generalizing t with
  | nil => rfl
  | cons c _ ih => exact ih (t.step c) (List.pairwise_cons.1 hd).2
  | swap c d cs =>
    have hdc := (List.pairwise_cons.1 hd).1 c (List.mem_cons_self _ _)
    simp only [run_cons, step_comm t hdc.1 hdc.2]
  | trans h₁ _ ih₁ ih₂ =>
    exact (ih₁ t hd).trans (ih₂ t (hd.perm h₁ fun h => ⟨Ne.symm h.1, Ne.symm h.2⟩))

theorem run_perm_example :
    [Call.mk "foo" 0x1000 16, ⟨"bar", 0x2000, 8⟩].Perm [⟨"bar", 0x2000, 8⟩, ⟨"foo", 0x1000, 16⟩] ∧
    [Call.mk "foo" 0x1000 16, ⟨"bar", 0x2000, 8⟩].Pairwise (fun c d => c.symbol ≠ d.symbol ∧ c.high ≠ d.high) ∧
    empty.run [⟨"foo", 0x1000, 16⟩, ⟨"bar", 0x2000, 8⟩] = empty.run [⟨"bar", 0x2000, 8⟩, ⟨"foo", 0x1000, 16⟩] := by
  have h : [Call.mk "foo" 0x1000 16, ⟨"bar", 0x2000, 8⟩].Perm [⟨"bar", 0x2000, 8⟩, ⟨"foo", 0x1000, 16⟩] :=
    .swap _ _ _
  have hd : [Call.mk "foo" 0x1000 16, ⟨"bar", 0x2000, 8⟩].Pairwise
      (fun c d => c.symbol ≠ d.symbol ∧ c.high ≠ d.high) := by decide
  exact ⟨h, hd, run_perm empty h hd⟩

end SymbolTable

end Covoar

end RtemsTools
