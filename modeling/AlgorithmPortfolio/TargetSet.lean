/-!
# Sets of coverage targets

A set of targets is an ascending list of their numbers, so equal sets are equal lists.

- `TargetSet.ofList`, `TargetSet.union`: the set of a list and of two sets.
- `TargetSet.mem_union`: the members of a union.
-/

namespace AlgorithmPortfolio

/-- Put `x` before the first greater number of an ascending list, unless it is there. -/
def insertAscending (x : Nat) : List Nat → List Nat
  | [] => [x]
  | y :: rest =>
    if x < y then x :: y :: rest else if x = y then y :: rest else y :: insertAscending x rest

theorem mem_insertAscending {x z : Nat} {ys : List Nat} :
    z ∈ insertAscending x ys ↔ z = x ∨ z ∈ ys := by
  induction ys with
  | nil => simp [insertAscending]
  | cons y rest ih =>
    simp only [insertAscending]
    split
    · simp
    · split
      · rename_i _ h
        subst h
        simp
      · simp only [List.mem_cons, ih]
        exact or_left_comm

theorem pairwise_insertAscending {x : Nat} {ys : List Nat} (h : ys.Pairwise (· < ·)) :
    (insertAscending x ys).Pairwise (· < ·) := by
  induction ys with
  | nil => simp [insertAscending]
  | cons y rest ih =>
    obtain ⟨hy, hrest⟩ := List.pairwise_cons.mp h
    simp only [insertAscending]
    split
    · rename_i hxy
      exact List.pairwise_cons.mpr ⟨fun z hz =>
        (List.mem_cons.mp hz).elim (fun e => e ▸ hxy) (fun m => Nat.lt_trans hxy (hy z m)), h⟩
    · split
      · exact h
      · refine List.pairwise_cons.mpr ⟨fun z hz => ?_, ih hrest⟩
        rcases mem_insertAscending.mp hz with rfl | m
        · omega
        · exact hy z m

/-- A set of coverage targets, listed in ascending order. -/
@[ext] structure TargetSet where
  toList : List Nat
  ascending : toList.Pairwise (· < ·)
  deriving DecidableEq

namespace TargetSet

/-- The set without targets. -/
def empty : TargetSet := ⟨[], List.Pairwise.nil⟩

instance : Inhabited TargetSet := ⟨empty⟩

instance : Membership Nat TargetSet := ⟨fun set target => target ∈ set.toList⟩

/-- The set with one more target. -/
def insert (target : Nat) (set : TargetSet) : TargetSet :=
  ⟨insertAscending target set.toList, pairwise_insertAscending set.ascending⟩

/-- The set with all targets of a list. -/
def insertAll (targets : List Nat) (set : TargetSet) : TargetSet :=
  targets.foldl (fun set target => set.insert target) set

/-- The targets of a list. -/
def ofList (targets : List Nat) : TargetSet := insertAll targets empty

/-- The targets of two sets. -/
def union (a b : TargetSet) : TargetSet := insertAll b.toList a

/-- Whether there is no target. -/
def isEmpty (set : TargetSet) : Bool := set.toList.isEmpty

theorem mem_insert {x y : Nat} {set : TargetSet} : x ∈ set.insert y ↔ x = y ∨ x ∈ set :=
  mem_insertAscending

theorem mem_insertAll {x : Nat} {targets : List Nat} {set : TargetSet} :
    x ∈ insertAll targets set ↔ x ∈ targets ∨ x ∈ set := by
  induction targets generalizing set with
  | nil => simp [insertAll]
  | cons y rest ih =>
    have := @ih (set.insert y)
    simp only [insertAll, List.foldl_cons] at this ⊢
    rw [this, mem_insert, List.mem_cons]
    exact ⟨fun h => h.elim (fun h => .inl (.inr h)) (fun h => h.elim (fun h => .inl (.inl h)) .inr),
      fun h => h.elim (fun h => h.elim (fun h => .inr (.inl h)) .inl) (fun h => .inr (.inr h))⟩

theorem mem_union {x : Nat} {a b : TargetSet} : x ∈ union a b ↔ x ∈ a ∨ x ∈ b := by
  rw [union, mem_insertAll]
  exact or_comm

end TargetSet

end AlgorithmPortfolio
