/-!
# Maps as sorted lists of pairs

A finite map is the list of its pairs in the order of their keys, so that
maps with the same entries are equal and their order is never in question.
The order is given by a comparison function.
-/

namespace GuestControl

/-- Pairs of key and value; the operations below keep the keys sorted and distinct. -/
abbrev SortedMap (κ α : Type) := List (κ × α)

namespace SortedMap

variable {κ α : Type} [DecidableEq κ]

def find? (m : SortedMap κ α) (k : κ) : Option α :=
  match m with
  | [] => none
  | (k', v) :: rest => if k = k' then some v else find? rest k

def contains (m : SortedMap κ α) (k : κ) : Bool := (find? m k).isSome

def insert (before : κ → κ → Bool) (m : SortedMap κ α) (k : κ) (v : α) : SortedMap κ α :=
  match m with
  | [] => [(k, v)]
  | (k', v') :: rest =>
    if k = k' then (k, v) :: rest
    else if before k k' then (k, v) :: (k', v') :: rest
    else (k', v') :: insert before rest k v

def erase (m : SortedMap κ α) (k : κ) : SortedMap κ α :=
  match m with
  | [] => []
  | (k', v') :: rest => if k = k' then rest else (k', v') :: erase rest k

/-- The map of a list of pairs; of two pairs with one key the later counts. -/
def ofPairs (before : κ → κ → Bool) (pairs : List (κ × α)) : SortedMap κ α :=
  pairs.foldl (fun m p => insert before m p.1 p.2) []

theorem find?_insert_self (before : κ → κ → Bool) (m : SortedMap κ α) (k : κ) (v : α) :
    find? (insert before m k v) k = some v := by
  induction m with
  | nil => simp [insert, find?]
  | cons p rest ih =>
    simp only [insert]
    split
    · simp [find?]
    · split
      · simp [find?]
      · rename_i h _
        simp [find?, h, ih]

theorem find?_insert_of_ne (before : κ → κ → Bool) (m : SortedMap κ α) {k k' : κ} (v : α)
    (h : k' ≠ k) : find? (insert before m k v) k' = find? m k' := by
  induction m with
  | nil => simp [insert, find?, h]
  | cons p rest ih =>
    simp only [insert]
    split
    · rename_i hk
      subst hk
      simp [find?, h]
    · split
      · simp [find?, h]
      · simp [find?, ih]

theorem find?_erase_of_ne (m : SortedMap κ α) {k k' : κ} (h : k' ≠ k) :
    find? (erase m k) k' = find? m k' := by
  induction m with
  | nil => rfl
  | cons p rest ih =>
    simp only [erase]
    split
    · rename_i hk
      subst hk
      simp [find?, h]
    · simp [find?, ih]

theorem erase_insert (before : κ → κ → Bool) {m : SortedMap κ α} {k : κ} (v : α)
    (h : find? m k = none) : erase (insert before m k v) k = m := by
  induction m with
  | nil => simp [insert, erase]
  | cons p rest ih =>
    simp only [find?] at h
    split at h
    · cases h
    · rename_i hk
      simp only [insert, hk, if_false]
      split
      · simp [erase]
      · simp [erase, hk, ih h]

-- ---------------------------------------------------------------------------
-- The order of the keys
-- ---------------------------------------------------------------------------

/-- The comparison is a strict order in which any two keys can be told apart. -/
structure IsOrder (before : κ → κ → Bool) : Prop where
  irrefl : ∀ a, before a a = false
  trans : ∀ a b c, before a b = true → before b c = true → before a c = true
  total : ∀ a b, a ≠ b → before a b = true ∨ before b a = true

/-- The keys stand in their order, each once. -/
def Sorted (before : κ → κ → Bool) (m : SortedMap κ α) : Prop :=
  m.Pairwise fun p q => before p.1 q.1 = true

variable {before : κ → κ → Bool}

theorem mem_insert {m : SortedMap κ α} {k : κ} {v : α} {p : κ × α}
    (hp : p ∈ insert before m k v) : p = (k, v) ∨ p ∈ m := by
  induction m with
  | nil => simpa [insert] using hp
  | cons q rest ih =>
    simp only [insert] at hp
    split at hp
    · rcases List.mem_cons.mp hp with rfl | hp
      · exact .inl rfl
      · exact .inr (List.mem_cons_of_mem _ hp)
    · split at hp
      · exact List.mem_cons.mp hp
      · rcases List.mem_cons.mp hp with rfl | hp
        · exact .inr List.mem_cons_self
        · exact (ih hp).imp id (List.mem_cons_of_mem _)

theorem mem_of_mem_erase {m : SortedMap κ α} {k : κ} {p : κ × α} (hp : p ∈ erase m k) :
    p ∈ m := by
  induction m with
  | nil => exact hp
  | cons q rest ih =>
    simp only [erase] at hp
    split at hp
    · exact List.mem_cons_of_mem _ hp
    · rcases List.mem_cons.mp hp with rfl | hp
      · exact List.mem_cons_self
      · exact List.mem_cons_of_mem _ (ih hp)

theorem Sorted.insert (ho : IsOrder before) {m : SortedMap κ α} (hm : Sorted before m)
    (k : κ) (v : α) : Sorted before (insert before m k v) := by
  induction m with
  | nil => simp [Sorted, SortedMap.insert]
  | cons q rest ih =>
    obtain ⟨hq, hrest⟩ := List.pairwise_cons.mp hm
    simp only [SortedMap.insert]
    split
    · rename_i hk
      exact List.pairwise_cons.mpr ⟨fun p hp => hk ▸ hq p hp, hrest⟩
    · rename_i hk
      split
      · rename_i hb
        refine List.pairwise_cons.mpr ⟨?_, hm⟩
        intro p hp
        rcases List.mem_cons.mp hp with rfl | hp
        · exact hb
        · exact ho.trans _ _ _ hb (hq p hp)
      · rename_i hb
        have hqk : before q.1 k = true := (ho.total _ _ hk).resolve_left hb
        refine List.pairwise_cons.mpr ⟨?_, ih hrest⟩
        intro p hp
        rcases mem_insert hp with rfl | hp
        · exact hqk
        · exact hq p hp

theorem Sorted.erase {m : SortedMap κ α} (hm : Sorted before m) (k : κ) :
    Sorted before (erase m k) := by
  induction m with
  | nil => exact hm
  | cons q rest ih =>
    obtain ⟨hq, hrest⟩ := List.pairwise_cons.mp hm
    simp only [SortedMap.erase]
    split
    · exact hrest
    · exact List.pairwise_cons.mpr ⟨fun p hp => hq p (mem_of_mem_erase hp), ih hrest⟩

theorem find?_eq_none {m : SortedMap κ α} {k : κ} (h : ∀ p ∈ m, p.1 ≠ k) : find? m k = none := by
  induction m with
  | nil => rfl
  | cons q rest ih =>
    have hq : k ≠ q.1 := (h q List.mem_cons_self).symm
    simp [find?, hq, ih fun p hp => h p (List.mem_cons_of_mem _ hp)]

theorem mem_keys {m : SortedMap κ α} {k : κ} :
    k ∈ m.map Prod.fst ↔ ∃ v, find? m k = some v := by
  induction m with
  | nil => simp [find?]
  | cons p rest ih =>
    by_cases hk : k = p.1
    · simp [find?, hk]
    · simp only [List.map_cons, List.mem_cons, hk, false_or, ih, find?, if_false]

omit [DecidableEq κ] in
theorem Sorted.nodup_keys (ho : IsOrder before) {m : SortedMap κ α} (hm : Sorted before m) :
    (m.map Prod.fst).Nodup := by
  refine List.pairwise_map.mpr (hm.imp fun {p q} hpq he => ?_)
  rw [he, ho.irrefl] at hpq
  cases hpq

theorem find?_erase_self (ho : IsOrder before) {m : SortedMap κ α} (hm : Sorted before m)
    (k : κ) : find? (erase m k) k = none := by
  induction m with
  | nil => rfl
  | cons q rest ih =>
    obtain ⟨hq, hrest⟩ := List.pairwise_cons.mp hm
    simp only [erase]
    split
    · rename_i hk
      subst hk
      refine find?_eq_none fun p hp he => ?_
      have hp := hq p hp
      rw [he, ho.irrefl] at hp
      cases hp
    · rename_i hk
      simp [find?, hk, ih hrest]

theorem Sorted.find?_of_before (ho : IsOrder before) {m : SortedMap κ α} {p : κ × α} {k : κ}
    (hm : Sorted before (p :: m)) (hk : before k p.1 = true) : find? (p :: m) k = none := by
  refine find?_eq_none fun q hq he => ?_
  have hkq : before k q.1 = true := by
    rcases List.mem_cons.mp hq with rfl | hq
    · exact hk
    · exact ho.trans _ _ _ hk ((List.pairwise_cons.mp hm).1 q hq)
  rw [he, ho.irrefl] at hkq
  cases hkq

theorem Sorted.find?_tail (ho : IsOrder before) {m : SortedMap κ α} {p : κ × α}
    (hm : Sorted before (p :: m)) : find? m p.1 = none := by
  refine find?_eq_none fun q hq he => ?_
  have hpq := (List.pairwise_cons.mp hm).1 q hq
  rw [he, ho.irrefl] at hpq
  cases hpq

theorem Sorted.head_eq (ho : IsOrder before) {m m' : SortedMap κ α} {p q : κ × α}
    (hm : Sorted before (p :: m)) (hm' : Sorted before (q :: m'))
    (h : ∀ k, find? (p :: m) k = find? (q :: m') k) : p = q := by
  have hp : find? (p :: m) p.1 = some p.2 := by simp [find?]
  have hq : find? (q :: m') q.1 = some q.2 := by simp [find?]
  by_cases hkey : p.1 = q.1
  · rw [h, hkey, hq] at hp
    exact Prod.ext hkey (Option.some.inj hp).symm
  · rcases ho.total _ _ hkey with hb | hb
    · rw [h, hm'.find?_of_before ho hb] at hp
      cases hp
    · rw [← h, hm.find?_of_before ho hb] at hq
      cases hq

/-- A map is known by what it has under each key. -/
theorem Sorted.ext (ho : IsOrder before) {m m' : SortedMap κ α} (hm : Sorted before m)
    (hm' : Sorted before m') (h : ∀ k, find? m k = find? m' k) : m = m' := by
  induction m generalizing m' with
  | nil =>
    cases m' with
    | nil => rfl
    | cons q m' => simpa [find?] using h q.1
  | cons p m ih =>
    cases m' with
    | nil => simpa [find?] using h p.1
    | cons q m' =>
      obtain rfl := hm.head_eq ho hm' h
      refine congrArg (p :: ·) (ih hm.of_cons hm'.of_cons fun k => ?_)
      by_cases hk : k = p.1
      · rw [hk, hm.find?_tail ho, hm'.find?_tail ho]
      · simpa [find?, hk] using h k

end SortedMap

end GuestControl
