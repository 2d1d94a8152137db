import AlgorithmPortfolio.TimeMenu

/-!
# Offers of menus

- `mem_evenOffers`, `mem_doubledUpTo`: the offers of either scale lie between one second and the
  cap.
- `pairwise_offers`, `bounds_of_mem_offers`: the offers of a menu ascend strictly and are within
  its cap.
- `offers_eq_nil_iff`: only a menu of multiples of more than the cap offers nothing.
-/

namespace AlgorithmPortfolio

/-! ## Multiples -/

theorem mem_evenOffers {cap granularity offer : Nat} :
    offer ∈ evenOffers cap granularity ↔ 0 < granularity ∧
      ∃ k, 1 ≤ k ∧ k ≤ cap / granularity ∧ k * granularity = offer := by
  unfold evenOffers
  by_cases hzero : granularity = 0
  · simp [hzero]
  · have hmem (k : Nat) : k ∈ List.range' 1 (cap / granularity) ↔
        1 ≤ k ∧ k ≤ cap / granularity := by
      rw [List.mem_range'_1]
      omega
    rw [if_neg hzero]
    simp only [List.mem_map, hmem, Nat.pos_of_ne_zero hzero, true_and, and_assoc]

theorem pairwise_evenOffers (cap granularity : Nat) :
    (evenOffers cap granularity).Pairwise (· < ·) := by
  unfold evenOffers
  by_cases hzero : granularity = 0
  · rw [if_pos hzero]
    exact .nil
  · rw [if_neg hzero, List.pairwise_map]
    refine List.Pairwise.imp (fun hlt => ?_) List.pairwise_lt_range'
    exact Nat.mul_lt_mul_of_pos_right hlt (Nat.pos_of_ne_zero hzero)

theorem evenOffers_eq_nil_iff {cap granularity : Nat} :
    evenOffers cap granularity = [] ↔ granularity = 0 ∨ cap < granularity := by
  unfold evenOffers
  by_cases hzero : granularity = 0
  · simp [hzero]
  · simp [hzero, Nat.div_eq_zero_iff]

/-! ## Doublings -/

/-- Doublings start with the value, or with the cap if that is less. -/
theorem mem_doubledUpTo {cap value : Nat} (h : 0 < value) {offer : Nat}
    (hoffer : offer ∈ doubledUpTo cap value h) : min value cap ≤ offer ∧ offer ≤ cap := by
  fun_induction doubledUpTo cap value h with
  | case1 value h hlt ih =>
    rcases List.mem_cons.mp hoffer with rfl | hrest
    · exact ⟨Nat.min_le_left _ _, Nat.le_of_lt hlt⟩
    · have hbounds := ih hrest
      omega
  | case2 value h hle =>
    obtain rfl := List.mem_singleton.mp hoffer
    exact ⟨Nat.min_le_right _ _, Nat.le_refl _⟩

theorem pairwise_doubledUpTo (cap : Nat) {value : Nat} (h : 0 < value) :
    (doubledUpTo cap value h).Pairwise (· < ·) := by
  fun_induction doubledUpTo cap value h with
  | case1 value h hlt ih =>
    refine List.pairwise_cons.mpr ⟨fun offer hoffer => ?_, ih⟩
    have hbounds := mem_doubledUpTo _ hoffer
    omega
  | case2 value h hle => exact List.pairwise_singleton _ _

theorem doubledUpTo_ne_nil (cap : Nat) {value : Nat} (h : 0 < value) :
    doubledUpTo cap value h ≠ [] := by
  fun_cases doubledUpTo cap value h with
  | case1 hlt => exact List.cons_ne_nil _ _
  | case2 hle => exact List.cons_ne_nil _ _

/-! ## Menus -/

namespace TimeMenu

variable (menu : TimeMenu)

/-- The doublings of a menu start with its granularity. -/
theorem doublingOffers_eq :
    doublingOffers menu.cap menu.granularity =
      doubledUpTo menu.cap menu.granularity menu.granularity_pos :=
  dif_pos menu.granularity_pos

/-- The offers of a menu ascend strictly. -/
theorem pairwise_offers : menu.offers.Pairwise (· < ·) := by
  unfold offers
  cases menu.scale with
  | uniform => exact pairwise_evenOffers _ _
  | exponential =>
    show (doublingOffers menu.cap menu.granularity).Pairwise (· < ·)
    rw [doublingOffers_eq]
    exact pairwise_doubledUpTo _ _

theorem nodup_offers : menu.offers.Nodup := menu.pairwise_offers.imp Nat.ne_of_lt

/-- The offers of a menu are positive and within its cap. -/
theorem bounds_of_mem_offers {offer : Nat} (h : offer ∈ menu.offers) :
    0 < offer ∧ offer ≤ menu.cap := by
  unfold offers at h
  -- even offers are multiples, and doubled ones run from the granularity to the cap
  cases hscale : menu.scale with
  | uniform =>
    rw [hscale] at h
    obtain ⟨hpos, k, hk, hcap, rfl⟩ := mem_evenOffers.mp h
    exact ⟨Nat.mul_pos hk hpos, (Nat.le_div_iff_mul_le hpos).mp hcap⟩
  | exponential =>
    rw [hscale] at h
    change offer ∈ doublingOffers menu.cap menu.granularity at h
    rw [doublingOffers_eq] at h
    have hbounds := mem_doubledUpTo _ h
    have hgranularity := menu.granularity_pos
    have hcap := menu.cap_pos
    omega

/-- Only multiples of more than the cap leave a menu without an offer. -/
theorem offers_eq_nil_iff :
    menu.offers = [] ↔ menu.scale = .uniform ∧ menu.cap < menu.granularity := by
  unfold offers
  cases menu.scale with
  | uniform =>
    have hgranularity := menu.granularity_pos
    show evenOffers menu.cap menu.granularity = [] ↔ _
    rw [evenOffers_eq_nil_iff]
    constructor
    · rintro (hzero | hlt)
      · omega
      · exact ⟨rfl, hlt⟩
    · rintro ⟨-, hlt⟩
      exact .inr hlt
  | exponential =>
    show doublingOffers menu.cap menu.granularity = [] ↔ _
    rw [doublingOffers_eq]
    exact ⟨fun hnil => absurd hnil (doubledUpTo_ne_nil _ _), fun h => nomatch h.1⟩

end TimeMenu

end AlgorithmPortfolio
