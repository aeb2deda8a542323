import Mathlib.Data.Finset.Card
import Mathlib.Algebra.Group.Nat.Defs
import Mathlib.Data.List.Count

/-!
# The prefixes that a trace fails

The prefixes are selected from the failable list, top region and bottom region, and recorded from the list of top prefixes,
which the failable list is a part of.
-/

namespace Ns3Fancy.Apps
set_option autoImplicit false

/-- `fail_types`. -/
inductive FailType where
  | TopDown | Random | All | Unknown
  deriving DecidableEq

def getFailType (strType : String) : FailType :=
  if strType = "TopDown" then .TopDown
  else if strType = "Random" then .Random
  else if strType = "All" then .All
  else .Unknown

/-- The attributes that select the prefixes to fail. -/
structure FailAttributes where
  numTopEntries : UInt32
  topDrops : UInt32
  bottomDrops : UInt32
  topFailType : String
  bottomFailType : String
  outFile : String

/-- What the files hold: the destinations of the trace, the addresses of the top file, and those that may fail if a file of
them is given. -/
structure Files where
  trace : List UInt32
  top : List UInt32
  allowedToFail : Option (List UInt32)

/-- The /24 of an address. -/
def slash24 (ip : UInt32) : UInt32 := ip &&& 0xffffff00

/-- The indices of the lists are of type `int`. -/
def Indexed (list : List UInt32) : Prop := list.length < 2 ^ 31

instance (list : List UInt32) : Decidable (Indexed list) := inferInstanceAs (Decidable (_ < _))

/-- The top prefixes that are in the trace. -/
def Files.topPrefixes (f : Files) : List UInt32 := (f.top.map slash24).filter fun p => p ∈ f.trace.map slash24

/-- No result is an index that overflows. -/
def loadTopPrefixes (f : Files) : Option (List UInt32) := if Indexed f.top then some f.topPrefixes else none

/-- The top prefixes that may fail, in their order. -/
def allowedPrefixes (allowed topPrefixes : List UInt32) : List UInt32 :=
  topPrefixes.filter fun p => p ∈ allowed.map slash24

def loadAllowedPrefixes (allowed topPrefixes : List UInt32) : Option (List UInt32) :=
  if Indexed allowed then some (allowedPrefixes allowed topPrefixes) else none

/-- The numbers as they are adjusted to the size of the failable list. -/
def FailAttributes.adjust (size : UInt32) (c : FailAttributes) : FailAttributes :=
  let c := if c.numTopEntries > size then { c with numTopEntries := size } else c
  let c := if c.numTopEntries < c.topDrops then { c with topDrops := c.numTopEntries, topFailType := "All" } else c
  if size - c.numTopEntries < c.bottomDrops then
    { c with bottomDrops := size - c.numTopEntries, bottomFailType := "All" }
  else c

/-- The conversion of a `uint32_t` to `int`. -/
def int (x : UInt32) : Int := x.toInt32.toInt

section
variable (failable : List UInt32)

/-- An assertion that an index is at most the size; the comparison is unsigned. -/
def InBounds (limit : Int) : Prop := 0 ≤ limit ∧ limit ≤ failable.length

instance (limit : Int) : Decidable (InBounds failable limit) := inferInstanceAs (Decidable (_ ∧ _))

/-- The indices from one limit to the other. -/
def indices (minLimit maxLimit : Int) : List Nat := List.range' minLimit.toNat (maxLimit - minLimit).toNat

def addAll : List Nat → Finset UInt32 → Option (Finset UInt32)
  | [], fails => some fails
  | i :: is, fails => (failable[i]?).bind fun p => addAll is (insert p fails)

/-- No result is an assertion that fires or an index out of range. -/
def addToFailAll (minLimit maxLimit : Int) (fails : Finset UInt32) : Option (Finset UInt32) :=
  if InBounds failable minLimit ∧ InBounds failable maxLimit then addAll failable (indices minLimit maxLimit) fails else none

def addTopBottom (numberToAdd : Int) : List Nat → Int → Finset UInt32 → Option (Finset UInt32)
  | [], _, fails => some fails
  | i :: is, added, fails =>
    if added = numberToAdd then some fails
    else (failable[i]?).bind fun p =>
      if p ∈ fails then addTopBottom numberToAdd is added fails else addTopBottom numberToAdd is (added + 1) (insert p fails)

def addToFailTopBottom (minLimit maxLimit numberToAdd : Int) (fails : Finset UInt32) : Option (Finset UInt32) :=
  if InBounds failable minLimit ∧ InBounds failable maxLimit ∧ numberToAdd ≤ maxLimit - minLimit then
    addTopBottom failable numberToAdd (indices minLimit maxLimit) 0 fails
  else none

/-- `GetInteger`, of both limits and the values between them; any such values come from some stream of draws. -/
def getInteger (draw : Nat) (min max : Int) : Option Nat :=
  if min ≤ max then some (min + (draw : Int) % (max - min + 1)).toNat else none

/-- The loop with the draws that it may still make. -/
def addRandom (draws : Nat → Nat) (minLimit maxLimit numberToAdd : Int) :
    Nat → Nat → Int → Finset UInt32 → Option (Finset UInt32)
  | 0, _, _, fails => some fails
  | rest + 1, count, added, fails =>
    if added ≠ numberToAdd ∧ fails.card ≠ failable.length then
      (getInteger (draws count) minLimit (maxLimit - 1)).bind fun i => (failable[i]?).bind fun p =>
        if p ∈ fails then addRandom draws minLimit maxLimit numberToAdd rest (count + 1) added fails
        else addRandom draws minLimit maxLimit numberToAdd rest (count + 1) (added + 1) (insert p fails)
    else some fails

/-- It gives up once `count` is over 2000000. -/
def addToFailRandom (draws : Nat → Nat) (minLimit maxLimit numberToAdd : Int) (fails : Finset UInt32) :
    Option (Finset UInt32) :=
  if InBounds failable minLimit ∧ InBounds failable maxLimit ∧ numberToAdd ≤ maxLimit - minLimit then
    addRandom failable draws minLimit maxLimit numberToAdd 2000001 0 0 fails
  else none

/-- The choice by fail type, of either region. -/
def addToFail (failType : FailType) (draws : Nat → Nat) (minLimit maxLimit numberToAdd : Int) (fails : Finset UInt32) :
    Option (Finset UInt32) :=
  match failType with
  | .TopDown => addToFailTopBottom failable minLimit maxLimit numberToAdd fails
  | .Random => addToFailRandom failable draws minLimit maxLimit numberToAdd fails
  | .All => addToFailAll failable minLimit maxLimit fails
  | .Unknown => some fails

end

/-- The lines of `SaveFailedPrefixes`: a prefix and its label. -/
def saveFailedPrefixes (c : FailAttributes) (topPrefixes : List UInt32) (fails : Finset UInt32) : List (UInt32 × Nat) :=
  if c.outFile ≠ "" then
    (topPrefixes.zipIdx.filter fun entry => entry.1 ∈ fails).map fun entry =>
      (entry.1, if entry.2 < c.numTopEntries.toNat then 1 else 0)
  else []

/-- What `StartApplication` selects and records: the prefixes to fail after the top region and after both. -/
structure Failures where
  topPrefixes : List UInt32
  failable : List UInt32
  adjusted : FailAttributes
  topFails : Finset UInt32
  fails : Finset UInt32
  lines : List (UInt32 × Nat)

def failablePrefixes (f : Files) (topPrefixes : List UInt32) : Option (List UInt32) :=
  match f.allowedToFail with
  | none => some topPrefixes
  | some allowed => loadAllowedPrefixes allowed topPrefixes

/-- `StartApplication` up to `SaveFailedPrefixes`, with the draws of the top and of the bottom region. -/
def startApplication (c : FailAttributes) (f : Files) (topDraws bottomDraws : Nat → Nat) : Option Failures := do
  let topPrefixes ← loadTopPrefixes f
  let failable ← failablePrefixes f topPrefixes
  let size := UInt32.ofNat failable.length
  let c := c.adjust size
  let topFails ← addToFail failable (getFailType c.topFailType) topDraws 0 (int c.numTopEntries) (int c.topDrops) ∅
  let fails ← addToFail failable (getFailType c.bottomFailType) bottomDraws (int c.numTopEntries) (int size)
    (int c.bottomDrops) topFails
  some ⟨topPrefixes, failable, c, topFails, fails, saveFailedPrefixes c topPrefixes fails⟩

/-! ## What each choice selects -/

/-- The first `k` of a list that are not selected yet. -/
def firstNew : Nat → List UInt32 → Finset UInt32 → Finset UInt32
  | 0, _, fails => fails
  | _ + 1, [], fails => fails
  | k + 1, p :: ps, fails => if p ∈ fails then firstNew (k + 1) ps fails else firstNew k ps (insert p fails)

/-- What a choice of at most `k` from a region does. -/
structure Adds (region : List UInt32) (k : Nat) (fails grown : Finset UInt32) : Prop where
  keeps : fails ⊆ grown
  within : ∀ p ∈ grown, p ∈ fails ∨ p ∈ region
  few : (grown \ fails).card ≤ k

section
variable {failable region : List UInt32} {k : Nat} {fails grown : Finset UInt32}

theorem Adds.refl (region : List UInt32) (k : Nat) (fails : Finset UInt32) : Adds region k fails fails where
  keeps := Finset.Subset.refl _
  within _ mem := Or.inl mem
  few := by
    rw [Finset.sdiff_self]
    exact Nat.zero_le k

/-- One prefix more, from the region. -/
theorem Adds.insert {p : UInt32} (mem : p ∈ region) (new : p ∉ fails) (adds : Adds region k (insert p fails) grown) :
    Adds region (k + 1) fails grown where
  keeps := (Finset.subset_insert p fails).trans adds.keeps
  within q there := by
    rcases adds.within q there with here | inRegion
    · rcases Finset.mem_insert.1 here with rfl | here
      · exact Or.inr mem
      · exact Or.inl here
    · exact Or.inr inRegion
  few := by
    have split : grown \ fails ⊆ Insert.insert p (grown \ Insert.insert p fails) := by
      intro q there
      rw [Finset.mem_sdiff] at there
      rw [Finset.mem_insert, Finset.mem_sdiff, Finset.mem_insert, not_or]
      by_cases same : q = p
      · exact Or.inl same
      · exact Or.inr ⟨there.1, same, there.2⟩
    calc (grown \ fails).card ≤ (Insert.insert p (grown \ Insert.insert p fails)).card := Finset.card_le_card split
      _ ≤ (grown \ Insert.insert p fails).card + 1 := Finset.card_insert_le _ _
      _ ≤ k + 1 := Nat.add_le_add_right adds.few 1

theorem Adds.mono {more : List UInt32} {k' : Nat} (adds : Adds region k fails grown) (sub : ∀ p ∈ region, p ∈ more)
    (le : k ≤ k') : Adds more k' fails grown where
  keeps := adds.keeps
  within p mem := (adds.within p mem).imp_right (sub p)
  few := adds.few.trans le

theorem firstNew_adds (k : Nat) (ps : List UInt32) (fails : Finset UInt32) : Adds ps k fails (firstNew k ps fails) := by
  induction ps generalizing k fails with
  | nil => cases k <;> exact Adds.refl _ _ _
  | cons p ps ih =>
    cases k with
    | zero => exact Adds.refl _ _ _
    | succ k =>
      unfold firstNew
      split
      · exact (ih (k + 1) fails).mono (fun q mem => List.mem_cons_of_mem p mem) (Nat.le_refl _)
      · rename_i new
        exact Adds.insert List.mem_cons_self new
          ((ih k (Insert.insert p fails)).mono (fun q mem => List.mem_cons_of_mem p mem) (Nat.le_refl _))

/-- If nothing selected is repeated in the list, the first `k` of it are selected. -/
theorem take_subset_firstNew {ps : List UInt32}
    (once : ∀ q ∈ firstNew k ps fails, ps.count q ≤ if q ∈ fails then 0 else 1) :
    ∀ p ∈ ps.take k, p ∈ firstNew k ps fails := by
  induction ps generalizing k fails with
  | nil =>
    intro p mem
    rw [List.take_nil] at mem
    cases mem
  | cons p ps ih =>
    cases k with
    | zero =>
      intro q mem
      cases mem
    | succ k =>
      unfold firstNew at once ⊢
      split at once
      · rename_i old
        have none := once p ((firstNew_adds (k + 1) ps fails).keeps old)
        rw [if_pos old, List.count_cons_self] at none
        omega
      · rename_i new
        rw [if_neg new]
        have keeps := (firstNew_adds k ps (insert p fails)).keeps
        have rest := @ih k (insert p fails) (fun q mem => by
          have most := once q mem
          rw [List.count_cons] at most
          by_cases same : q = p
          · subst same
            rw [if_neg new, beq_self_eq_true, if_pos rfl] at most
            rw [if_pos (Finset.mem_insert_self q fails)]
            omega
          · have iff : (q ∈ insert p fails) = (q ∈ fails) := by
              rw [Finset.mem_insert]
              exact propext (or_iff_right same)
            simp only [iff]
            omega)
        intro q mem
        rcases List.mem_cons.1 mem with rfl | mem
        · exact keeps (Finset.mem_insert_self q fails)
        · exact rest q mem

/-- If the first `k` of the list are new and not repeated, nothing else is selected. -/
theorem firstNew_subset_take {ps : List UInt32} (nodup : (ps.take k).Nodup) (new : ∀ p ∈ ps.take k, p ∉ fails) :
    ∀ p ∈ firstNew k ps fails, p ∈ fails ∨ p ∈ ps.take k := by
  induction ps generalizing k fails with
  | nil =>
    intro p mem
    cases k <;> exact Or.inl mem
  | cons p ps ih =>
    cases k with
    | zero =>
      intro q mem
      exact Or.inl mem
    | succ k =>
      rw [List.take_succ_cons] at nodup new ⊢
      unfold firstNew
      rw [if_neg (new p List.mem_cons_self)]
      intro q mem
      have rest := @ih k (insert p fails) (List.nodup_cons.1 nodup).2 (fun r there => by
        rw [Finset.mem_insert, not_or]
        refine ⟨?_, new r (List.mem_cons_of_mem p there)⟩
        rintro rfl
        exact (List.nodup_cons.1 nodup).1 there) q mem
      rcases rest with old | there
      · rcases Finset.mem_insert.1 old with rfl | old
        · exact Or.inr List.mem_cons_self
        · exact Or.inl old
      · exact Or.inr (List.mem_cons_of_mem p there)

/-- The first index of a range is in the list, and the rest of the region is what follows it. -/
theorem region_succ {a n : Nat} (inside : a + (n + 1) ≤ failable.length) :
    ∃ p, failable[a]? = some p ∧ (failable.drop a).take (n + 1) = p :: (failable.drop (a + 1)).take n := by
  have first : a < failable.length := by omega
  refine ⟨failable[a], List.getElem?_eq_getElem first, ?_⟩
  rw [List.drop_eq_getElem_cons first, List.take_succ_cons]

theorem addAll_range {a n : Nat} (inside : a + n ≤ failable.length) (fails : Finset UInt32) :
    addAll failable (List.range' a n) fails = some (fails ∪ ((failable.drop a).take n).toFinset) := by
  induction n generalizing a fails with
  | zero => simp [addAll]
  | succ n ih =>
    obtain ⟨p, read, rest⟩ := region_succ inside
    rw [List.range'_succ, addAll, read, Option.bind_some, ih (by omega), rest, List.toFinset_cons,
      Finset.union_insert, Finset.insert_union]

theorem addTopBottom_range {a n : Nat} (inside : a + n ≤ failable.length) (numberToAdd added : Int)
    (left : numberToAdd = added + k) (fails : Finset UInt32) :
    addTopBottom failable numberToAdd (List.range' a n) added fails =
      some (firstNew k ((failable.drop a).take n) fails) := by
  induction n generalizing a k added fails with
  | zero => cases k <;> rfl
  | succ n ih =>
    obtain ⟨p, read, rest⟩ := region_succ inside
    rw [List.range'_succ, addTopBottom, rest]
    cases k with
    | zero =>
      rw [if_pos (by omega)]
      rfl
    | succ k =>
      rw [if_neg (by omega), read, Option.bind_some]
      unfold firstNew
      split
      · exact ih (by omega) added left fails
      · exact ih (by omega) (added + 1) (by omega) (insert p fails)

/-- An index drawn between the limits. -/
theorem getInteger_region {a n : Nat} (inside : a + n ≤ failable.length) (some_ : 0 < n) (draw : Nat) :
    ∃ i, getInteger draw a ((a + n : Nat) - 1) = some i ∧ i = a + draw % n ∧
      ∃ p, failable[i]? = some p ∧ p ∈ (failable.drop a).take n := by
  have below : draw % n < n := Nat.mod_lt draw some_
  refine ⟨a + draw % n, ?_, rfl, failable[a + draw % n], List.getElem?_eq_getElem (by omega), ?_⟩
  · have width : ((a + n : Nat) - 1 : Int) - a + 1 = n := by omega
    rw [getInteger, if_pos (by omega), width]
    congr 1
  · rw [List.mem_take_iff_getElem]
    refine ⟨draw % n, ?_, ?_⟩
    · rw [List.length_drop]
      omega
    · rw [List.getElem_drop]

theorem addRandom_adds {a n : Nat} (inside : a + n ≤ failable.length) (draws : Nat → Nat) (numberToAdd : Int)
    (rest count : Nat) (added : Int) (left : numberToAdd = added + k) (room : 0 < k → 0 < n) (fails : Finset UInt32) :
    ∃ grown, addRandom failable draws a (a + n : Nat) numberToAdd rest count added fails = some grown ∧
      Adds ((failable.drop a).take n) k fails grown := by
  induction rest generalizing k count added fails with
  | zero => exact ⟨fails, rfl, Adds.refl _ _ _⟩
  | succ rest ih =>
    unfold addRandom
    split
    · rename_i more
      have positive : 0 < k := by omega
      obtain ⟨i, drawn, -, p, read, mem⟩ := getInteger_region inside (room positive) (draws count)
      rw [drawn, Option.bind_some, read, Option.bind_some]
      split
      · exact ih (count + 1) added left room fails
      · rename_i new
        obtain ⟨k, rfl⟩ : ∃ k', k = k' + 1 := ⟨k - 1, by omega⟩
        obtain ⟨grown, same, adds⟩ := ih (k := k) (count + 1) (added + 1) (by omega) (fun _ => room positive) (insert p fails)
        exact ⟨grown, same, adds.insert mem new⟩
    · exact ⟨fails, rfl, Adds.refl _ _ _⟩

theorem int_eq {x : UInt32} (small : x.toNat < 2 ^ 31) : int x = x.toNat := by
  have same : x.toInt32.toInt = x.toBitVec.toInt := rfl
  have value : x.toBitVec.toNat = x.toNat := rfl
  rw [int, same, BitVec.toInt_eq_toNat_of_lt (by omega), value]

/-- **What a choice does**: it has a result, adds prefixes of its region only, and at most as many as it was told unless it
adds them all. -/
structure Chooses (failType : FailType) (region : List UInt32) (k : Nat) (fails grown : Finset UInt32) : Prop where
  keeps : fails ⊆ grown
  within : ∀ p ∈ grown, p ∈ fails ∨ p ∈ region
  few : failType ≠ .All → (grown \ fails).card ≤ k
  all : failType = .All → ∀ p ∈ region, p ∈ grown

theorem Adds.chooses {failType : FailType} (adds : Adds region k fails grown) (some_ : failType ≠ .All) :
    Chooses failType region k fails grown :=
  ⟨adds.keeps, adds.within, fun _ => adds.few, fun all => absurd all some_⟩

theorem indices_eq (a n : Nat) : indices a (a + n : Nat) = List.range' a n := by
  unfold indices
  congr 1
  omega

section
variable {a n : Nat} (inside : a + n ≤ failable.length) (le : k ≤ n) (fails : Finset UInt32)
include inside

theorem inBounds : InBounds failable a ∧ InBounds failable (a + n : Nat) := by
  unfold InBounds
  omega

theorem addToFailAll_eq : addToFailAll failable a (a + n : Nat) fails =
    some (fails ∪ ((failable.drop a).take n).toFinset) := by
  rw [addToFailAll, if_pos (inBounds inside), indices_eq, addAll_range inside]

include le

theorem addToFailTopBottom_eq : addToFailTopBottom failable a (a + n : Nat) k fails =
    some (firstNew k ((failable.drop a).take n) fails) := by
  have fits : (k : Int) ≤ (a + n : Nat) - (a : Int) := by omega
  rw [addToFailTopBottom, if_pos ⟨(inBounds inside).1, (inBounds inside).2, fits⟩, indices_eq,
    addTopBottom_range inside k 0 (k := k) (by omega)]

theorem addToFailRandom_eq (draws : Nat → Nat) : addToFailRandom failable draws a (a + n : Nat) k fails =
    addRandom failable draws a (a + n : Nat) k 2000001 0 0 fails := by
  have fits : (k : Int) ≤ (a + n : Nat) - (a : Int) := by omega
  rw [addToFailRandom, if_pos ⟨(inBounds inside).1, (inBounds inside).2, fits⟩]

theorem addToFail_chooses (failType : FailType) (draws : Nat → Nat) :
    ∃ grown, addToFail failable failType draws a (a + n : Nat) k fails = some grown ∧
      Chooses failType ((failable.drop a).take n) k fails grown := by
  cases failType with
  | TopDown => exact ⟨_, addToFailTopBottom_eq inside le fails, (firstNew_adds _ _ _).chooses (by decide)⟩
  | Random =>
    obtain ⟨grown, same, adds⟩ := addRandom_adds inside draws k 2000001 0 0 (k := k) (by omega) (by omega) fails
    exact ⟨grown, (addToFailRandom_eq inside le fails draws).trans same, adds.chooses (by decide)⟩
  | All =>
    refine ⟨_, addToFailAll_eq inside fails, Finset.subset_union_left, fun p mem => ?_, fun not => absurd rfl not,
      fun _ p mem => ?_⟩
    · exact (Finset.mem_union.1 mem).imp_right List.mem_toFinset.1
    · exact Finset.mem_union_right _ (List.mem_toFinset.2 mem)
  | Unknown => exact ⟨fails, rfl, (Adds.refl _ _ _).chooses (by decide)⟩

end

/-- The prefixes of a region that a choice of a given type may select. -/
def candidates (failType : FailType) (k : Nat) (region : List UInt32) : List UInt32 :=
  match failType with
  | .TopDown => region.take k
  | .Random => if k = 0 then [] else region
  | .All => region
  | .Unknown => []

theorem candidates_sub {failType : FailType} : ∀ p ∈ candidates failType k region, p ∈ region := by
  intro p mem
  cases failType with
  | TopDown => exact List.mem_of_mem_take mem
  | Random =>
    have mem : p ∈ if k = 0 then [] else region := mem
    split at mem
    · cases mem
    · exact mem
  | All => exact mem
  | Unknown => cases mem

section
variable {a n : Nat} (inside : a + n ≤ failable.length) (le : k ≤ n)
include inside le

/-- If the candidates are new and not repeated, nothing else is selected. -/
theorem addToFail_candidates {failType : FailType} {draws : Nat → Nat}
    (chosen : addToFail failable failType draws a (a + n : Nat) k fails = some grown)
    (nodup : (candidates failType k ((failable.drop a).take n)).Nodup ∨ failType ≠ .TopDown)
    (new : ∀ p ∈ candidates failType k ((failable.drop a).take n), p ∉ fails) :
    ∀ p ∈ grown, p ∈ fails ∨ p ∈ candidates failType k ((failable.drop a).take n) := by
  obtain ⟨result, same, chooses⟩ := addToFail_chooses inside le fails failType draws
  obtain rfl : result = grown := Option.some.inj (same.symm.trans chosen)
  cases failType with
  | TopDown =>
    obtain rfl := Option.some.inj ((addToFailTopBottom_eq inside le fails).symm.trans chosen)
    exact firstNew_subset_take (nodup.resolve_right (not_not_intro rfl)) new
  | Random =>
    intro p mem
    show p ∈ fails ∨ p ∈ if k = 0 then [] else (failable.drop a).take n
    split
    · rename_i zero
      have few := chooses.few (by decide)
      rw [zero] at few
      have empty := Finset.card_eq_zero.1 (Nat.le_zero.1 few)
      exact Or.inl ((Finset.sdiff_eq_empty_iff_subset.1 empty) mem)
    · exact chooses.within p mem
  | All => exact chooses.within
  | Unknown =>
    obtain rfl := Option.some.inj chosen
    exact fun p mem => Or.inl mem

/-- A candidate is selected for some draws, if nothing selected is repeated. -/
theorem exists_draws {failType : FailType} {p : UInt32} (fails : Finset UInt32)
    (mem : p ∈ candidates failType k ((failable.drop a).take n))
    (room : fails.card ≠ failable.length ∨ k = 0) :
    ∃ draws : Nat → Nat, ∀ grown, addToFail failable failType draws a (a + n : Nat) k fails = some grown →
      (∀ q ∈ grown, ((failable.drop a).take n).count q ≤ if q ∈ fails then 0 else 1) → p ∈ grown := by
  cases failType with
  | TopDown =>
    refine ⟨fun _ => 0, fun grown chosen once => ?_⟩
    obtain rfl := Option.some.inj ((addToFailTopBottom_eq inside le fails).symm.trans chosen)
    exact take_subset_firstNew once p mem
  | Random =>
    have mem : p ∈ if k = 0 then [] else (failable.drop a).take n := mem
    split at mem
    · cases mem
    · rename_i positive
      obtain ⟨j, below, rfl⟩ := List.mem_take_iff_getElem.1 mem
      rw [List.length_drop] at below
      refine ⟨fun _ => j, fun grown chosen _ => ?_⟩
      -- the first draw is the candidate
      obtain ⟨i, drawn, rfl, q, read, -⟩ := getInteger_region inside (by omega) j
      rw [Nat.mod_eq_of_lt (by omega)] at drawn read
      have same : (failable.drop a)[j] = q := by
        rw [List.getElem_drop]
        exact Option.some.inj ((List.getElem?_eq_getElem (by omega)).symm.trans read)
      have chosen : addToFailRandom failable (fun _ => j) a (a + n : Nat) k fails = some grown := chosen
      rw [addToFailRandom_eq inside le fails, addRandom, if_pos ⟨by omega, room.resolve_right positive⟩, drawn,
        Option.bind_some, read, Option.bind_some] at chosen
      rw [same]
      split at chosen
      · rename_i old
        obtain ⟨result, same, adds⟩ := addRandom_adds inside (fun _ => j) k 2000000 1 0 (k := k) (by omega) (by omega) fails
        obtain rfl := Option.some.inj (same.symm.trans chosen)
        exact adds.keeps old
      · obtain ⟨result, same, adds⟩ := addRandom_adds inside (fun _ => j) k 2000000 1 (0 + 1) (k := k - 1) (by omega)
          (by omega) (insert q fails)
        obtain rfl := Option.some.inj (same.symm.trans chosen)
        exact adds.keeps (Finset.mem_insert_self q fails)
  | All =>
    refine ⟨fun _ => 0, fun grown chosen _ => ?_⟩
    obtain ⟨result, same, chooses⟩ := addToFail_chooses inside le fails .All fun _ => 0
    obtain rfl := Option.some.inj (same.symm.trans chosen)
    exact chooses.all rfl p mem
  | Unknown => cases mem

end

end

/-! ## What the application selects -/

/-- The failable list of the files. -/
def Files.failable (f : Files) : List UInt32 :=
  match f.allowedToFail with
  | none => f.topPrefixes
  | some allowed => allowedPrefixes allowed f.topPrefixes

/-- The lists of the files have indices of type `int`. -/
structure Files.Indexed (f : Files) : Prop where
  top : Apps.Indexed f.top
  allowed : ∀ allowed, f.allowedToFail = some allowed → Apps.Indexed allowed

/-- The attributes adjusted to the files. -/
def Files.adjust (f : Files) (c : FailAttributes) : FailAttributes := c.adjust (UInt32.ofNat f.failable.length)

section
variable {c : FailAttributes} {f : Files} {topDraws bottomDraws : Nat → Nat} {r : Failures}

theorem failable_sublist (f : Files) : f.failable.Sublist f.topPrefixes := by
  unfold Files.failable
  cases f.allowedToFail with
  | none => exact List.Sublist.refl _
  | some allowed => exact List.filter_sublist

theorem failable_length (indexed : f.Indexed) : f.failable.length < 2 ^ 31 := by
  have top : f.topPrefixes.length ≤ f.top.length := by
    unfold Files.topPrefixes
    exact (List.length_filter_le _ _).trans_eq (List.length_map _)
  have fewer := (failable_sublist f).length_le
  have small : f.top.length < 2 ^ 31 := indexed.top
  omega

theorem failable_size (indexed : f.Indexed) : (UInt32.ofNat f.failable.length).toNat = f.failable.length := by
  have small := failable_length indexed
  rw [UInt32.toNat_ofNat']
  omega

/-- The adjusted numbers fit the regions. -/
theorem adjust_fits (size : UInt32) (c : FailAttributes) :
    (c.adjust size).numTopEntries.toNat ≤ size.toNat ∧
      (c.adjust size).topDrops.toNat ≤ (c.adjust size).numTopEntries.toNat ∧
      (c.adjust size).bottomDrops.toNat ≤ size.toNat - (c.adjust size).numTopEntries.toNat ∧
      (c.adjust size).outFile = c.outFile := by
  obtain ⟨c₁, same₁, top, out₁⟩ : ∃ c₁, c₁ = (if c.numTopEntries > size then { c with numTopEntries := size } else c) ∧
      c₁.numTopEntries.toNat ≤ size.toNat ∧ c₁.outFile = c.outFile := by
    refine ⟨_, rfl, ?_⟩
    split
    · exact ⟨Nat.le_refl _, rfl⟩
    · rename_i few
      exact ⟨UInt32.le_iff_toNat_le.1 (UInt32.not_lt.1 few), rfl⟩
  obtain ⟨c₂, same₂, top₂, drops, out₂⟩ : ∃ c₂, c₂ = (if c₁.numTopEntries < c₁.topDrops then
      { c₁ with topDrops := c₁.numTopEntries, topFailType := "All" } else c₁) ∧
      c₂.numTopEntries = c₁.numTopEntries ∧ c₂.topDrops.toNat ≤ c₁.numTopEntries.toNat ∧ c₂.outFile = c₁.outFile := by
    refine ⟨_, rfl, ?_⟩
    split
    · exact ⟨rfl, Nat.le_refl _, rfl⟩
    · rename_i few
      exact ⟨rfl, UInt32.le_iff_toNat_le.1 (UInt32.not_lt.1 few), rfl⟩
  have adjusted : c.adjust size = if size - c₂.numTopEntries < c₂.bottomDrops then
      { c₂ with bottomDrops := size - c₂.numTopEntries, bottomFailType := "All" } else c₂ := by
    rw [same₂, same₁]
    rfl
  have left : (size - c₁.numTopEntries).toNat = size.toNat - c₁.numTopEntries.toNat :=
    UInt32.toNat_sub_of_le _ _ (UInt32.le_iff_toNat_le.2 top)
  rw [adjusted]
  split
  · dsimp only
    rw [top₂, left, out₂]
    exact ⟨top, drops, Nat.le_refl _, out₁⟩
  · rename_i few
    have few := UInt32.le_iff_toNat_le.1 (UInt32.not_lt.1 few)
    rw [top₂, left] at few
    rw [top₂, out₂]
    exact ⟨top, drops, few, out₁⟩

/-- What a start was, region by region. -/
structure Starts (c : FailAttributes) (f : Files) (topDraws bottomDraws : Nat → Nat) (r : Failures) : Prop where
  topPrefixes : r.topPrefixes = f.topPrefixes
  failable : r.failable = f.failable
  adjusted : r.adjusted = f.adjust c
  top : addToFail f.failable (getFailType (f.adjust c).topFailType) topDraws (0 : Nat)
    (0 + (f.adjust c).numTopEntries.toNat : Nat)
    (f.adjust c).topDrops.toNat ∅ = some r.topFails
  bottom : addToFail f.failable (getFailType (f.adjust c).bottomFailType) bottomDraws (f.adjust c).numTopEntries.toNat
    ((f.adjust c).numTopEntries.toNat + (f.failable.length - (f.adjust c).numTopEntries.toNat) : Nat)
    (f.adjust c).bottomDrops.toNat r.topFails = some r.fails
  lines : r.lines = saveFailedPrefixes r.adjusted r.topPrefixes r.fails

/-- The bottom region is the rest of the list. -/
theorem drop_region (list : List UInt32) (n : Nat) : (list.drop n).take (list.length - n) = list.drop n := by
  apply List.take_of_length_le
  rw [List.length_drop]

/-- The adjusted numbers, as numbers. -/
theorem adjust_numbers (indexed : f.Indexed) (c : FailAttributes) :
    (f.adjust c).numTopEntries.toNat ≤ f.failable.length ∧
      (f.adjust c).topDrops.toNat ≤ (f.adjust c).numTopEntries.toNat ∧
      (f.adjust c).bottomDrops.toNat ≤ f.failable.length - (f.adjust c).numTopEntries.toNat := by
  obtain ⟨top, topDrops, bottomDrops, -⟩ := adjust_fits (UInt32.ofNat f.failable.length) c
  rw [failable_size indexed] at top bottomDrops
  exact ⟨top, topDrops, bottomDrops⟩

/-- A start, part by part: the two lists are loaded and each region is chosen from. -/
theorem startApplication_eq (indexed : f.Indexed) {topFails fails : Finset UInt32}
    (top : addToFail f.failable (getFailType (f.adjust c).topFailType) topDraws 0 (int (f.adjust c).numTopEntries)
      (int (f.adjust c).topDrops) ∅ = some topFails)
    (bottom : addToFail f.failable (getFailType (f.adjust c).bottomFailType) bottomDraws (int (f.adjust c).numTopEntries)
      (int (UInt32.ofNat f.failable.length)) (int (f.adjust c).bottomDrops) topFails = some fails) :
    startApplication c f topDraws bottomDraws = some ⟨f.topPrefixes, f.failable, f.adjust c, topFails, fails,
      saveFailedPrefixes (f.adjust c) f.topPrefixes fails⟩ := by
  have loaded : loadTopPrefixes f = some f.topPrefixes := if_pos indexed.top
  have filtered : failablePrefixes f f.topPrefixes = some f.failable := by
    unfold failablePrefixes Files.failable
    cases given : f.allowedToFail with
    | none => rfl
    | some allowed => exact if_pos (indexed.allowed allowed given)
  refine Option.bind_eq_some_iff.2 ⟨_, loaded, ?_⟩
  refine Option.bind_eq_some_iff.2 ⟨_, filtered, ?_⟩
  refine Option.bind_eq_some_iff.2 ⟨_, top, ?_⟩
  exact Option.bind_eq_some_iff.2 ⟨_, bottom, rfl⟩

/-- **Starting**: the assertions hold and no index is out of range, and each region is chosen from as it should be. -/
theorem start_chooses (indexed : f.Indexed) (c : FailAttributes) (topDraws bottomDraws : Nat → Nat) :
    ∃ r, startApplication c f topDraws bottomDraws = some r ∧ Starts c f topDraws bottomDraws r ∧
      Chooses (getFailType (f.adjust c).topFailType) (f.failable.take (f.adjust c).numTopEntries.toNat)
        (f.adjust c).topDrops.toNat ∅ r.topFails ∧
      Chooses (getFailType (f.adjust c).bottomFailType) (f.failable.drop (f.adjust c).numTopEntries.toNat)
        (f.adjust c).bottomDrops.toNat r.topFails r.fails := by
  have small := failable_length indexed
  have size := failable_size indexed
  obtain ⟨top, topDrops, bottomDrops⟩ := adjust_numbers indexed c
  have topRegion : 0 + (f.adjust c).numTopEntries.toNat ≤ f.failable.length := by omega
  have bottomRegion : (f.adjust c).numTopEntries.toNat + (f.failable.length - (f.adjust c).numTopEntries.toNat) ≤
      f.failable.length := by
    omega
  obtain ⟨topFails, topChosen, topChooses⟩ := addToFail_chooses topRegion topDrops ∅ (getFailType (f.adjust c).topFailType)
    topDraws
  obtain ⟨fails, chosen, chooses⟩ := addToFail_chooses bottomRegion bottomDrops topFails
    (getFailType (f.adjust c).bottomFailType) bottomDraws
  refine ⟨⟨f.topPrefixes, f.failable, f.adjust c, topFails, fails, saveFailedPrefixes (f.adjust c) f.topPrefixes fails⟩,
    startApplication_eq indexed ?_ ?_, ⟨rfl, rfl, rfl, topChosen, chosen, rfl⟩, topChooses, ?_⟩
  · rw [int_eq (by omega), int_eq (by omega), ← Nat.zero_add (f.adjust c).numTopEntries.toNat]
    exact topChosen
  · have ends : f.failable.length =
        (f.adjust c).numTopEntries.toNat + (f.failable.length - (f.adjust c).numTopEntries.toNat) := by
      omega
    rw [← ends] at chosen
    rw [int_eq (by omega), int_eq (by omega), int_eq (by omega), size]
    exact chosen
  · have whole : (f.failable.drop (f.adjust c).numTopEntries.toNat).take
        (f.failable.length - (f.adjust c).numTopEntries.toNat) = f.failable.drop (f.adjust c).numTopEntries.toNat := by
      apply List.take_of_length_le
      rw [List.length_drop]
    rw [whole] at chooses
    exact chooses

/-- Lists too long for the indices give no result. -/
theorem indexed_of_start (started : startApplication c f topDraws bottomDraws = some r) : f.Indexed := by
  obtain ⟨topPrefixes, loaded, started⟩ := Option.bind_eq_some_iff.1 started
  obtain ⟨failable, filtered, -⟩ := Option.bind_eq_some_iff.1 started
  unfold loadTopPrefixes at loaded
  split at loaded
  · rename_i top
    refine ⟨top, fun allowed given => ?_⟩
    rw [failablePrefixes, given] at filtered
    have filtered : (if Apps.Indexed allowed then some (allowedPrefixes allowed topPrefixes) else none) = some failable :=
      filtered
    split at filtered
    · rename_i fits
      exact fits
    · cases filtered
  · cases loaded

/-- The record of the prefixes to fail: each on one line, with the label of its region. -/
structure Recorded (topFails fails : Finset UInt32) (lines : List (UInt32 × Nat)) : Prop where
  failed : ∀ line ∈ lines, line.1 ∈ fails
  once : ∀ p ∈ fails, (lines.map Prod.fst).count p = 1
  label : ∀ line ∈ lines, line.2 = if line.1 ∈ topFails then 1 else 0

/-- A start as it should be: the choice of each region, and the record if a file for it is given. -/
structure Selects (c : FailAttributes) (f : Files) (r : Failures) : Prop where
  top : Chooses (getFailType (f.adjust c).topFailType) (f.failable.take (f.adjust c).numTopEntries.toNat)
    (f.adjust c).topDrops.toNat ∅ r.topFails
  bottom : Chooses (getFailType (f.adjust c).bottomFailType) (f.failable.drop (f.adjust c).numTopEntries.toNat)
    (f.adjust c).bottomDrops.toNat r.topFails r.fails
  record : c.outFile ≠ "" → Recorded r.topFails r.fails r.lines

/-- No prefix that may be selected is repeated in the list of top prefixes, and those of the top region are in its top
region. -/
structure Recordable (c : FailAttributes) (f : Files) : Prop where
  top : ∀ p ∈ candidates (getFailType (f.adjust c).topFailType) (f.adjust c).topDrops.toNat
      (f.failable.take (f.adjust c).numTopEntries.toNat),
    f.topPrefixes.count p = 1 ∧ p ∈ f.topPrefixes.take (f.adjust c).numTopEntries.toNat
  bottom : ∀ p ∈ candidates (getFailType (f.adjust c).bottomFailType) (f.adjust c).bottomDrops.toNat
      (f.failable.drop (f.adjust c).numTopEntries.toNat),
    f.topPrefixes.count p = 1

theorem lines_prefixes (out : c.outFile ≠ "") (topPrefixes : List UInt32) (fails : Finset UInt32) :
    (saveFailedPrefixes c topPrefixes fails).map Prod.fst = topPrefixes.filter fun p => p ∈ fails := by
  rw [saveFailedPrefixes, if_pos out, List.map_map]
  conv_rhs => rw [← List.zipIdx_map_fst 0 topPrefixes, List.filter_map]
  rfl

theorem mem_lines (out : c.outFile ≠ "") {topPrefixes : List UInt32} {fails : Finset UInt32} {line : UInt32 × Nat} :
    line ∈ saveFailedPrefixes c topPrefixes fails ↔
      ∃ i, topPrefixes[i]? = some line.1 ∧ line.1 ∈ fails ∧ line.2 = if i < c.numTopEntries.toNat then 1 else 0 := by
  rw [saveFailedPrefixes, if_pos out, List.mem_map]
  constructor
  · rintro ⟨⟨p, i⟩, mem, rfl⟩
    obtain ⟨mem, fail⟩ := List.mem_filter.1 mem
    exact ⟨i, List.mk_mem_zipIdx_iff_getElem?.1 mem, of_decide_eq_true fail, rfl⟩
  · obtain ⟨p, label⟩ := line
    rintro ⟨i, here, fail, rfl⟩
    exact ⟨(p, i), List.mem_filter.2 ⟨List.mk_mem_zipIdx_iff_getElem?.2 here, decide_eq_true fail⟩, rfl⟩

/-- How often a selected prefix is recorded. -/
theorem lines_count (out : c.outFile ≠ "") {topPrefixes : List UInt32} {fails : Finset UInt32} {p : UInt32} (fail : p ∈ fails) :
    ((saveFailedPrefixes c topPrefixes fails).map Prod.fst).count p = topPrefixes.count p := by
  rw [lines_prefixes out]
  exact List.count_filter (decide_eq_true fail)

theorem count_regions (list : List UInt32) (n : Nat) (p : UInt32) :
    (list.take n).count p + (list.drop n).count p = list.count p := by
  rw [← List.count_append, List.take_append_drop]

/-- A prefix that is not repeated is on one side of each index only. -/
theorem not_mem_drop {list : List UInt32} {n : Nat} {p : UInt32} (once : list.count p ≤ 1) (mem : p ∈ list.take n) :
    p ∉ list.drop n := by
  have both := count_regions list n p
  have first := List.one_le_count_iff.2 mem
  intro later
  have second := List.one_le_count_iff.2 later
  omega

theorem lt_iff_mem_take {list : List UInt32} {n i : Nat} {p : UInt32} (once : list.count p = 1) (here : list[i]? = some p) :
    i < n ↔ p ∈ list.take n := by
  obtain ⟨inside, here⟩ := List.getElem?_eq_some_iff.1 here
  constructor
  · intro below
    exact List.mem_take_iff_getElem.2 ⟨i, by omega, here⟩
  · intro mem
    apply Nat.lt_of_not_le
    intro above
    apply not_mem_drop once.le mem
    rw [List.mem_drop_iff_getElem]
    refine ⟨i - n, by omega, ?_⟩
    rw [← here]
    congr 1
    omega

/-- What a start has to do with the files, as facts about the lists. -/
theorem Starts.record_iff (starts : Starts c f topDraws bottomDraws r) (out : c.outFile ≠ "")
    (bottom : ∀ p ∈ r.fails, p ∈ r.topFails ∨ p ∈ f.failable.drop (f.adjust c).numTopEntries.toNat)
    (keeps : r.topFails ⊆ r.fails) :
    Recorded r.topFails r.fails r.lines ↔ (∀ p ∈ r.fails, f.topPrefixes.count p = 1) ∧
      ∀ p ∈ r.topFails, p ∈ f.topPrefixes.take (f.adjust c).numTopEntries.toNat := by
  have out : (f.adjust c).outFile ≠ "" := by
    rw [Files.adjust, (adjust_fits _ c).2.2.2]
    exact out
  have lines : r.lines = saveFailedPrefixes (f.adjust c) f.topPrefixes r.fails := by
    rw [starts.lines, starts.adjusted, starts.topPrefixes]
  constructor
  · intro recorded
    have once : ∀ p ∈ r.fails, f.topPrefixes.count p = 1 := by
      intro p fail
      have one := recorded.once p fail
      rw [lines, lines_count out fail] at one
      exact one
    refine ⟨once, fun p selected => ?_⟩
    have fail := keeps selected
    have inTop : p ∈ f.topPrefixes := List.one_le_count_iff.1 (once p fail).ge
    obtain ⟨i, here⟩ := List.mem_iff_getElem?.1 inTop
    have label := recorded.label (p, if i < (f.adjust c).numTopEntries.toNat then 1 else 0) (by
      rw [lines, mem_lines out]
      exact ⟨i, here, fail, rfl⟩)
    rw [if_pos selected] at label
    rw [← lt_iff_mem_take (once p fail) here]
    by_contra above
    rw [if_neg above] at label
    cases label
  · rintro ⟨once, inTop⟩
    refine ⟨fun line mem => ?_, fun p fail => ?_, fun line mem => ?_⟩
    · rw [lines, mem_lines out] at mem
      obtain ⟨i, -, fail, -⟩ := mem
      exact fail
    · rw [lines, lines_count out fail]
      exact once p fail
    · rw [lines, mem_lines out] at mem
      obtain ⟨i, here, fail, label⟩ := mem
      rw [label]
      have same : i < (f.adjust c).numTopEntries.toNat ↔ line.1 ∈ r.topFails := by
        rw [lt_iff_mem_take (once _ fail) here]
        refine ⟨fun first => ?_, inTop _⟩
        rcases bottom _ fail with selected | later
        · exact selected
        · exact absurd (((failable_sublist f).drop _).subset later) (not_mem_drop (once _ fail).le first)
      simp only [same]

/-- A start whatever is drawn, as it should be. -/
def SelectsAlways (c : FailAttributes) (f : Files) : Prop :=
  ∀ topDraws bottomDraws, ∃ r, startApplication c f topDraws bottomDraws = some r ∧ Selects c f r

/-- A prefix that is not repeated among the top prefixes is not repeated in the failable list. -/
theorem failable_count {p : UInt32} (once : f.topPrefixes.count p = 1) : f.failable.count p ≤ 1 :=
  ((failable_sublist f).count_le p).trans once.le

/-- What the record says of one start. -/
theorem SelectsAlways.start (right : SelectsAlways c f) (out : c.outFile ≠ "") (topDraws bottomDraws : Nat → Nat) :
    ∃ r, Starts c f topDraws bottomDraws r ∧ r.topFails ⊆ r.fails ∧
      (∀ p ∈ r.topFails, p ∈ f.failable.take (f.adjust c).numTopEntries.toNat) ∧
      (∀ p ∈ r.fails, f.topPrefixes.count p = 1) ∧
      ∀ p ∈ r.topFails, p ∈ f.topPrefixes.take (f.adjust c).numTopEntries.toNat := by
  obtain ⟨r, started, selects⟩ := right topDraws bottomDraws
  obtain ⟨r', started', starts, top, bottom⟩ := start_chooses (indexed_of_start started) c topDraws bottomDraws
  obtain rfl := Option.some.inj (started'.symm.trans started)
  have within : ∀ p ∈ r'.topFails, p ∈ f.failable.take (f.adjust c).numTopEntries.toNat := fun p mem =>
    (top.within p mem).resolve_left (Finset.notMem_empty p)
  exact ⟨r', starts, bottom.keeps, within, (starts.record_iff out bottom.within bottom.keeps).1 (selects.record out)⟩

/-- What may be selected from the top region is selected for some draws, and then recorded. -/
theorem SelectsAlways.recordable (right : SelectsAlways c f) (indexed : f.Indexed) (out : c.outFile ≠ "") :
    Recordable c f := by
  obtain ⟨topFits, topDrops, bottomDrops⟩ := adjust_numbers indexed c
  refine ⟨fun p candidate => ?_, fun p candidate => ?_⟩
  · have inside : 0 + (f.adjust c).numTopEntries.toNat ≤ f.failable.length := by omega
    have room : (∅ : Finset UInt32).card ≠ f.failable.length ∨ (f.adjust c).topDrops.toNat = 0 := by
      rw [Finset.card_empty]
      omega
    obtain ⟨topDraws, drawn⟩ := exists_draws inside topDrops ∅ candidate room
    obtain ⟨r, starts, keeps, -, once, inTop⟩ := right.start out topDraws fun _ => 0
    have selected : p ∈ r.topFails := by
      refine drawn r.topFails starts.top fun q fail => ?_
      rw [if_neg (Finset.notMem_empty q), List.drop_zero]
      have one := failable_count (once q (keeps fail))
      have both := count_regions f.failable (f.adjust c).numTopEntries.toNat q
      omega
    exact ⟨once p (keeps selected), inTop p selected⟩
  · have inside : (f.adjust c).numTopEntries.toNat + (f.failable.length - (f.adjust c).numTopEntries.toNat) ≤
        f.failable.length := by
      omega
    -- what the top region selects does not depend on the draws of the bottom region
    obtain ⟨r₀, starts₀, -, within, -⟩ := right.start out (fun _ => 0) fun _ => 0
    have room : r₀.topFails.card ≠ f.failable.length ∨ (f.adjust c).bottomDrops.toNat = 0 := by
      have sub : r₀.topFails ⊆ (f.failable.take (f.adjust c).numTopEntries.toNat).toFinset := fun q mem =>
        List.mem_toFinset.2 (within q mem)
      have card := (Finset.card_le_card sub).trans (List.toFinset_card_le _)
      rw [List.length_take] at card
      omega
    rw [← drop_region] at candidate
    obtain ⟨bottomDraws, drawn⟩ := exists_draws inside bottomDrops r₀.topFails candidate room
    obtain ⟨r, starts, -, -, once, -⟩ := right.start out (fun _ => 0) bottomDraws
    have same : r.topFails = r₀.topFails := Option.some.inj (starts.top.symm.trans starts₀.top)
    have selected : p ∈ r.fails := by
      refine drawn r.fails (same ▸ starts.bottom) fun q fail => ?_
      have one := failable_count (once q fail)
      have both := count_regions f.failable (f.adjust c).numTopEntries.toNat q
      rw [drop_region]
      split_ifs with first
      · have positive := List.one_le_count_iff.2 (within q first)
        omega
      · omega
    exact once p selected

/-- Only candidates are selected if they are not repeated. -/
theorem Recordable.once (recordable : Recordable c f) (indexed : f.Indexed) (starts : Starts c f topDraws bottomDraws r)
    (top : ∀ p ∈ r.topFails, p ∈ f.failable.take (f.adjust c).numTopEntries.toNat) :
    (∀ p ∈ r.fails, f.topPrefixes.count p = 1) ∧
      ∀ p ∈ r.topFails, p ∈ f.topPrefixes.take (f.adjust c).numTopEntries.toNat := by
  obtain ⟨topFits, topDrops, bottomDrops⟩ := adjust_numbers indexed c
  have nodup : ∀ failType k region, (∀ p ∈ candidates failType k region, f.topPrefixes.count p = 1) →
      region.Sublist f.failable → (candidates failType k region).Nodup ∨ failType ≠ .TopDown := by
    intro failType k region one sub
    cases failType with
    | TopDown =>
      left
      rw [List.nodup_iff_count_le_one]
      intro p
      by_cases mem : p ∈ region.take k
      · exact (((List.take_sublist k region).trans sub).count_le p).trans (failable_count (one p mem))
      · exact (List.count_eq_zero.2 mem).le.trans (Nat.zero_le 1)
    | Random => exact Or.inr (by decide)
    | All => exact Or.inr (by decide)
    | Unknown => exact Or.inr (by decide)
  have first := addToFail_candidates (a := 0) (by omega) topDrops starts.top
    (nodup _ _ _ (fun p mem => (recordable.top p mem).1) (List.take_sublist _ _)) fun p _ => Finset.notMem_empty p
  have topOnce : ∀ p ∈ r.topFails, f.topPrefixes.count p = 1 ∧ p ∈ f.topPrefixes.take (f.adjust c).numTopEntries.toNat :=
    fun p mem => recordable.top p ((first p mem).resolve_left (Finset.notMem_empty p))
  have inside : (f.adjust c).numTopEntries.toNat + (f.failable.length - (f.adjust c).numTopEntries.toNat) ≤
      f.failable.length := by
    omega
  have second := addToFail_candidates inside bottomDrops starts.bottom
  rw [drop_region] at second
  have second := second (nodup _ _ _ recordable.bottom (List.drop_sublist _ _)) fun p candidate selected =>
    not_mem_drop (failable_count (recordable.bottom p candidate)) (top p selected) (candidates_sub p candidate)
  refine ⟨fun p mem => ?_, fun p mem => (topOnce p mem).2⟩
  rcases second p mem with selected | candidate
  · exact (topOnce p selected).1
  · exact recordable.bottom p candidate

/-- **Selection and record**: exactly the attributes and files for which, whatever is drawn, no assertion fires, no index is
out of range, each region is chosen from as it should be and the record is right. -/
theorem selects_iff (c : FailAttributes) (f : Files) :
    SelectsAlways c f ↔ f.Indexed ∧ (c.outFile ≠ "" → Recordable c f) := by
  constructor
  · intro right
    have indexed : f.Indexed := by
      obtain ⟨r, started, -⟩ := right (fun _ => 0) fun _ => 0
      exact indexed_of_start started
    exact ⟨indexed, right.recordable indexed⟩
  · rintro ⟨indexed, recordable⟩ topDraws bottomDraws
    obtain ⟨r, started, starts, top, bottom⟩ := start_chooses indexed c topDraws bottomDraws
    have within : ∀ p ∈ r.topFails, p ∈ f.failable.take (f.adjust c).numTopEntries.toNat := fun p mem =>
      (top.within p mem).resolve_left (Finset.notMem_empty p)
    refine ⟨r, started, top, bottom, fun out => ?_⟩
    rw [starts.record_iff out bottom.within bottom.keeps]
    exact (recordable out).once indexed starts within

/-- Two prefixes, and the traffic of both. -/
def twoPrefixes (allowedToFail : Option (List UInt32)) : Files :=
  { trace := [0x0a000001, 0x0a000101], top := [0x0a000000, 0x0a000100], allowedToFail := allowedToFail }

/-- The top one of the prefixes is to fail. -/
def failTop : FailAttributes :=
  { numTopEntries := 1, topDrops := 1, bottomDrops := 0, topFailType := "TopDown", bottomFailType := "TopDown",
    outFile := "out" }

/-- Only the second prefix may fail: it is the top one of those that may, and is recorded as a bottom one. -/
theorem not_selectsAlways :
    ((startApplication failTop (twoPrefixes (some [0x0a000100])) (fun _ => 0) fun _ => 0).map fun r => (r.topFails, r.lines)) =
        some ({0x0a000100}, [(0x0a000100, 0)]) ∧
      ¬SelectsAlways failTop (twoPrefixes (some [0x0a000100])) := by
  have run : ((startApplication failTop (twoPrefixes (some [0x0a000100])) (fun _ => 0) fun _ => 0).map
      fun r => (r.topFails, r.lines)) = some ({0x0a000100}, [(0x0a000100, 0)]) := by
    decide +kernel
  refine ⟨run, fun right => ?_⟩
  obtain ⟨r, started, selects⟩ := right (fun _ => 0) fun _ => 0
  rw [started, Option.map_some] at run
  obtain ⟨topFails, lines⟩ := Prod.mk.inj (Option.some.inj run)
  have recorded := selects.record (by decide)
  have label := recorded.label (0x0a000100, 0) (by rw [lines]; exact List.mem_singleton.2 rfl)
  rw [topFails, if_pos (Finset.mem_singleton.2 rfl)] at label
  cases label

end

end Ns3Fancy.Apps
