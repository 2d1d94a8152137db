/-!
# Dictionaries in key order

A dictionary keeps its entries in strictly ascending order of their keys (by code point), so it
has one written form per content and a reader that lists it needs no sorting.

- `insertEntry`, `lookup`, `eraseKey`: the operations on plain lists of entries. The look-up
  laws hold for every list, ordered or not.
- `Dict β`: a list of entries with the proof that it is in order.
- `Dict.get?_insert`, `Dict.get?_erase`, `Dict.get?_overlay`: what a look-up sees after each
  change.
-/

namespace AlgorithmPortfolio

variable {β γ : Type}

/-! ## Plain lists of entries -/

/-- Put `v` under `k`: an entry with the same key is replaced, otherwise the new entry goes
before the first greater key. -/
def insertEntry (k : String) (v : β) : List (String × β) → List (String × β)
  | [] => [(k, v)]
  | (k', v') :: rest =>
    if k = k' then (k, v) :: rest
    else if k < k' then (k, v) :: (k', v') :: rest
    else (k', v') :: insertEntry k v rest

/-- The value of the first entry with key `k`. -/
def lookup (k : String) : List (String × β) → Option β
  | [] => none
  | (k', v') :: rest => if k = k' then some v' else lookup k rest

/-- Drop every entry with key `k`. -/
def eraseKey (k : String) (entries : List (String × β)) : List (String × β) :=
  entries.filter fun entry => entry.1 != k

@[simp] theorem lookup_nil (k : String) : lookup k ([] : List (String × β)) = none := rfl

theorem lookup_eq_none {k : String} {entries : List (String × β)} (h : ∀ e ∈ entries, e.1 ≠ k) :
    lookup k entries = none := by
  induction entries with
  | nil => rfl
  | cons hd tl ih =>
    rw [lookup, if_neg (Ne.symm (h hd List.mem_cons_self))]
    exact ih fun e he => h e (List.mem_cons_of_mem _ he)

theorem lookup_insertEntry (k k' : String) (v : β) (entries : List (String × β)) :
    lookup k' (insertEntry k v entries) = if k' = k then some v else lookup k' entries := by
  induction entries with
  | nil => simp [insertEntry, lookup]
  | cons hd tl ih =>
    obtain ⟨j, w⟩ := hd
    by_cases h₁ : k = j
    · subst h₁
      by_cases h : k' = k <;> simp [insertEntry, lookup, h]
    · by_cases h₂ : k < j
      · simp [insertEntry, lookup, h₁, h₂]
      · by_cases h : k' = j
        · subst h
          simp [insertEntry, lookup, h₁, h₂, Ne.symm h₁]
        · simp [insertEntry, lookup, h₁, h₂, h, ih]

theorem lookup_eraseKey (k k' : String) (entries : List (String × β)) :
    lookup k' (eraseKey k entries) = if k' = k then none else lookup k' entries := by
  induction entries with
  | nil => simp [eraseKey]
  | cons hd tl ih =>
    obtain ⟨j, w⟩ := hd
    simp only [eraseKey] at ih
    by_cases hj : j = k
    · subst hj
      by_cases h : k' = j <;> simp_all [eraseKey, lookup]
    · by_cases h : k' = j
      · subst h
        simp [eraseKey, lookup, hj]
      · simp [eraseKey, lookup, hj, h, ih]

theorem mem_insertEntry {k : String} {v : β} {e : String × β} {entries : List (String × β)}
    (h : e ∈ insertEntry k v entries) : e = (k, v) ∨ e ∈ entries := by
  induction entries with
  | nil => simpa [insertEntry] using h
  | cons hd tl ih =>
    obtain ⟨j, w⟩ := hd
    by_cases h₁ : k = j
    · subst h₁
      simp only [insertEntry, if_pos, List.mem_cons] at h
      rcases h with h | h
      · exact .inl h
      · exact .inr (List.mem_cons_of_mem _ h)
    · by_cases h₂ : k < j
      · simpa [insertEntry, h₁, h₂] using h
      · simp only [insertEntry, if_neg h₁, if_neg h₂, List.mem_cons] at h
        rcases h with h | h
        · exact .inr (h ▸ List.mem_cons_self)
        · exact (ih h).imp id (List.mem_cons_of_mem _)

/-! ## Dictionaries -/

/-- Whether entries are in strictly ascending order of their keys. -/
abbrev InKeyOrder (entries : List (String × β)) : Prop :=
  entries.Pairwise fun a b => a.1 < b.1

theorem inKeyOrder_insertEntry (k : String) (v : β) {entries : List (String × β)}
    (h : InKeyOrder entries) : InKeyOrder (insertEntry k v entries) := by
  induction entries with
  | nil => simp [insertEntry, InKeyOrder]
  | cons hd tl ih =>
    obtain ⟨j, w⟩ := hd
    obtain ⟨hhd, htl⟩ := List.pairwise_cons.mp h
    by_cases h₁ : k = j
    · subst h₁
      simpa [insertEntry, InKeyOrder] using h
    · by_cases h₂ : k < j
      · simp only [insertEntry, if_neg h₁, if_pos h₂]
        refine List.pairwise_cons.mpr ⟨fun e he => ?_, h⟩
        rcases List.mem_cons.mp he with rfl | he
        · exact h₂
        · exact String.lt_trans h₂ (hhd e he)
      · simp only [insertEntry, if_neg h₁, if_neg h₂]
        refine List.pairwise_cons.mpr ⟨fun e he => ?_, ih htl⟩
        rcases mem_insertEntry he with rfl | he
        · exact Decidable.byContradiction fun hn =>
            h₁ (String.le_antisymm (String.not_lt.mp hn) (String.not_lt.mp h₂))
        · exact hhd e he

/-- A dictionary: entries in strictly ascending order of their keys. -/
@[ext] structure Dict (β : Type) where
  entries : List (String × β)
  inOrder : InKeyOrder entries

namespace Dict

/-- The dictionary without entries. -/
def empty : Dict β := ⟨[], List.Pairwise.nil⟩

instance : Inhabited (Dict β) := ⟨empty⟩

/-- The value under `k`. -/
def get? (d : Dict β) (k : String) : Option β := lookup k d.entries

/-- Whether there is a value under `k`. -/
def contains (d : Dict β) (k : String) : Bool := (d.get? k).isSome

/-- The dictionary with `v` under `k`. -/
def insert (d : Dict β) (k : String) (v : β) : Dict β :=
  ⟨insertEntry k v d.entries, inKeyOrder_insertEntry k v d.inOrder⟩

/-- The dictionary without `k`. -/
def erase (d : Dict β) (k : String) : Dict β :=
  ⟨eraseKey k d.entries, d.inOrder.filter _⟩

/-- The keys, ascending. -/
def keys (d : Dict β) : List String := d.entries.map Prod.fst

/-- The number of entries. -/
def size (d : Dict β) : Nat := d.entries.length

/-- Insert pairs one after the other, so the last value of a key stays. -/
def insertAll (d : Dict β) (pairs : List (String × β)) : Dict β :=
  pairs.foldl (fun d pair => d.insert pair.1 pair.2) d

/-- The dictionary of a list of pairs; the last value of a key stays. -/
def ofList (pairs : List (String × β)) : Dict β := empty.insertAll pairs

/-- The entries of both; where both have a key, the second one's value. -/
def overlay (base top : Dict β) : Dict β := base.insertAll top.entries

@[simp] theorem get?_empty (k : String) : (empty : Dict β).get? k = none := rfl

theorem get?_insert (d : Dict β) (k k' : String) (v : β) :
    (d.insert k v).get? k' = if k' = k then some v else d.get? k' :=
  lookup_insertEntry k k' v d.entries

theorem get?_erase (d : Dict β) (k k' : String) :
    (d.erase k).get? k' = if k' = k then none else d.get? k' :=
  lookup_eraseKey k k' d.entries

/-- After inserting pairs with strictly ascending keys, their values win and all else stays. -/
theorem get?_insertAll (d : Dict β) {pairs : List (String × β)} (h : InKeyOrder pairs)
    (k : String) : (d.insertAll pairs).get? k = (lookup k pairs).or (d.get? k) := by
  induction pairs generalizing d with
  | nil => simp [insertAll]
  | cons hd tl ih =>
    obtain ⟨j, w⟩ := hd
    obtain ⟨hhd, htl⟩ := List.pairwise_cons.mp h
    have := ih (d.insert j w) htl
    simp only [insertAll, List.foldl_cons] at this ⊢
    rw [this, get?_insert]
    by_cases hk : k = j
    · subst hk
      have hnone : lookup k tl = none := lookup_eq_none fun e he hk =>
        String.lt_irrefl k (by simpa [hk] using hhd e he)
      simp [lookup, hnone]
    · simp [lookup, hk]

theorem get?_overlay (base top : Dict β) (k : String) :
    (base.overlay top).get? k = (top.get? k).or (base.get? k) :=
  get?_insertAll base top.inOrder k

end Dict

end AlgorithmPortfolio
