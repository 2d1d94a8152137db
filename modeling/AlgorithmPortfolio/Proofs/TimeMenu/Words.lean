import AlgorithmPortfolio.Proofs.TimeMenu.Offers
import Mathlib.Algebra.Group.Nat.Even
import Mathlib.Data.List.Nodup
import Mathlib.Data.Nat.Find

/-!
# Menus in machine words

Caps, granularities and offers are words of 32 bits, and a granularity is doubled in 64 bits.
Both ways to make offers are repeated here in words, where a result that does not fit is no
result. They always come to an end without one, and have made the offers that are made without
bounds.

- `product?`, `double?`: products of 32 bits and doubled words of 64 bits, if they fit.
- `evenWords`: the multiples in words.
- `Doubles`: a run of the loop behind the doublings in words. The loop has no bound: that there
  is a run says that it ends, and that all doubled values fit.
- `Scale.Makes`: what either scale makes in words.
- `evenWords_eq`, `exists_doubles`, `Doubles.toNat_eq`: the words are there, and are the offers.
- `Reaches`: how many doublings it takes to reach a cap.
- `Scale.ClosedForm`: the offers of each scale without a loop.
- `offers_of_words`: all of this for the menu of any two positive words.
-/

namespace AlgorithmPortfolio

/-! ## Offers in words -/

/-- The product of two words, unless it needs more than 32 bits. -/
def product? (a b : UInt32) : Option UInt32 :=
  if a.toNat * b.toNat < UInt32.size then some (a * b) else none

/-- Twice a word, unless that needs more than 64 bits. -/
def double? (value : UInt64) : Option UInt64 :=
  if value.toNat * 2 < UInt64.size then some (value * 2) else none

/-- The multiples of `granularity` up to `cap`, unless a product does not fit. -/
def evenWords (cap granularity : UInt32) : Option (List UInt32) :=
  if granularity = 0 then some []
  else (List.range' 1 (cap / granularity).toNat).mapM fun k => product? (.ofNat k) granularity

/-- The value or the cap, whichever is less, cut to 32 bits. -/
def offerWord (cap : UInt32) (value : UInt64) : UInt32 :=
  (if cap.toUInt64 < value then cap.toUInt64 else value).toUInt32

/-- A run of the loop of doublings from a value on, with its offers: the value is offered as far
as the cap goes, and unless that was the cap, the loop goes on from twice the value, if that
fits. -/
inductive Doubles (cap : UInt32) : UInt64 → List UInt32 → Prop
  | last {value : UInt64} : offerWord cap value = cap → Doubles cap value [offerWord cap value]
  | next {value double : UInt64} {later : List UInt32} : offerWord cap value ≠ cap →
      double? value = some double →
      Doubles cap double later → Doubles cap value (offerWord cap value :: later)

/-- The offers of a scale are made in words: no product is too great, or there is a run of the
loop. -/
def Scale.Makes (cap granularity : UInt32) (offers : List UInt32) : Scale → Prop
  | .uniform => evenWords cap granularity = some offers
  | .exponential => if granularity = 0 then offers = [] else Doubles cap granularity.toUInt64 offers

/-! ## Multiples -/

theorem toNat_product? {a b : UInt32} (h : a.toNat * b.toNat < UInt32.size) :
    (product? a b).map UInt32.toNat = some (a.toNat * b.toNat) := by
  rw [product?, if_pos h, Option.map_some, UInt32.toNat_mul]
  exact congrArg some (Nat.mod_eq_of_lt h)

/-- What every element has a result for, a list has one for. -/
theorem map_mapM_eq {α β γ : Type} {f : α → Option β} {view : β → γ} {g : α → γ} {xs : List α}
    (h : ∀ x ∈ xs, (f x).map view = some (g x)) :
    (xs.mapM f).map (List.map view) = some (xs.map g) := by
  induction xs with
  | nil => rfl
  | cons x rest ih =>
    obtain ⟨hx, hrest⟩ := List.forall_mem_cons.mp h
    obtain ⟨y, hy, hview⟩ := Option.map_eq_some_iff.mp hx
    obtain ⟨ys, hys, hviews⟩ := Option.map_eq_some_iff.mp (ih hrest)
    rw [List.mapM_cons, hy, hys, List.map_cons, ← hview, ← hviews]
    rfl

/-- No product of the multiples needs more than 32 bits. -/
theorem evenWords_eq (cap granularity : UInt32) :
    (evenWords cap granularity).map (List.map UInt32.toNat) =
      some (evenOffers cap.toNat granularity.toNat) := by
  unfold evenWords evenOffers
  by_cases hzero : granularity = 0
  · subst hzero
    rfl
  · have hpos : 0 < granularity.toNat := Nat.pos_of_ne_zero fun h => hzero (UInt32.toNat_inj.mp h)
    rw [if_neg hzero, if_neg (Nat.ne_of_gt hpos), UInt32.toNat_div]
    -- no product is past the cap, so none overflows
    refine map_mapM_eq fun k hk => ?_
    have hle : k ≤ cap.toNat / granularity.toNat := by
      have hrange := List.mem_range'_1.mp hk
      omega
    have hproduct : k * granularity.toNat ≤ cap.toNat := (Nat.le_div_iff_mul_le hpos).mp hle
    have hcap : cap.toNat < UInt32.size := cap.toNat_lt_size
    have hfactor : (UInt32.ofNat k).toNat = k :=
      UInt32.toNat_ofNat_of_lt' (Nat.lt_of_le_of_lt (Nat.le_trans hle (Nat.div_le_self _ _)) hcap)
    rw [toNat_product? (by rw [hfactor]; exact Nat.lt_of_le_of_lt hproduct hcap), hfactor]

/-! ## Doublings -/

theorem toNat_offerWord (cap : UInt32) (value : UInt64) :
    (offerWord cap value).toNat = min value.toNat cap.toNat := by
  have hcap : cap.toNat < 2 ^ 32 := cap.toNat_lt
  have hcut : cap.toUInt64 < value ↔ cap.toNat < value.toNat := UInt64.lt_iff_toNat_lt
  rw [offerWord, UInt64.toNat_toUInt32]
  by_cases hlt : cap.toNat < value.toNat
  · rw [if_pos (hcut.mpr hlt), Nat.min_eq_right (Nat.le_of_lt hlt)]
    exact Nat.mod_eq_of_lt hcap
  · have hle : value.toNat ≤ cap.toNat := Nat.not_lt.mp hlt
    rw [if_neg (mt hcut.mp hlt), Nat.min_eq_left hle]
    exact Nat.mod_eq_of_lt (Nat.lt_of_le_of_lt hle hcap)

theorem offerWord_eq_cap_iff {cap : UInt32} {value : UInt64} :
    offerWord cap value = cap ↔ cap.toNat ≤ value.toNat := by
  rw [← UInt32.toNat_inj, toNat_offerWord]
  omega

theorem toNat_double? {value double : UInt64} (h : double? value = some double) :
    double.toNat = 2 * value.toNat := by
  by_cases hfits : value.toNat * 2 < UInt64.size
  · rw [double?, if_pos hfits] at h
    cases h
    rw [UInt64.toNat_mul, Nat.mul_comm 2]
    exact Nat.mod_eq_of_lt hfits
  · rw [double?, if_neg hfits] at h
    cases h

/-- Twice a value below a cap of 32 bits fits in 64. -/
theorem exists_double {cap : UInt32} {value : UInt64} (h : value.toNat < cap.toNat) :
    ∃ double, double? value = some double := by
  have hcap : cap.toNat < 2 ^ 32 := cap.toNat_lt
  have hfits : value.toNat * 2 < UInt64.size := by
    have hsizes : 2 ^ 32 * 2 < UInt64.size := by decide
    omega
  exact ⟨value * 2, if_pos hfits⟩

/-- From every positive value there is a run: values below the cap grow, and their doubles
fit. -/
theorem exists_doubles (cap : UInt32) (value : UInt64) (h : 0 < value.toNat) :
    ∃ offers, Doubles cap value offers := by
  generalize hvalue : value.toNat = start at h
  fun_induction doubledUpTo cap.toNat start h generalizing value with
  | case1 start h hlt ih =>
    have hbelow : value.toNat < cap.toNat := hvalue ▸ hlt
    obtain ⟨double, hdouble⟩ := exists_double hbelow
    obtain ⟨later, hlater⟩ := ih double ((toNat_double? hdouble).trans (congrArg (2 * ·) hvalue))
    exact ⟨_, .next (mt offerWord_eq_cap_iff.mp (Nat.not_le.mpr hbelow)) hdouble hlater⟩
  | case2 start h hle => exact ⟨_, .last (offerWord_eq_cap_iff.mpr (hvalue ▸ Nat.not_lt.mp hle))⟩

/-- The offers of a run are those without bounds. -/
theorem Doubles.toNat_eq {cap : UInt32} {value : UInt64} {offers : List UInt32}
    (run : Doubles cap value offers) (h : 0 < value.toNat) :
    offers.map UInt32.toNat = doubledUpTo cap.toNat value.toNat h := by
  -- the run ends where the doubling reaches the cap
  induction run with
  | @last value hoffer =>
    have hle : cap.toNat ≤ value.toNat := offerWord_eq_cap_iff.mp hoffer
    rw [doubledUpTo, if_neg (Nat.not_lt.mpr hle), hoffer, List.map_singleton]
  | @next value double later hoffer hdouble _ ih =>
    have hlt : value.toNat < cap.toNat := Nat.not_le.mp (mt offerWord_eq_cap_iff.mpr hoffer)
    have hnext : double.toNat = 2 * value.toNat := toNat_double? hdouble
    have hlater := ih (by omega)
    simp only [hnext] at hlater
    rw [doubledUpTo, if_pos hlt, List.map_cons, toNat_offerWord,
      Nat.min_eq_left (Nat.le_of_lt hlt), hlater]

/-! ## Scales -/

/-- A scale makes offers for any two words. -/
theorem exists_makes (scale : Scale) (cap granularity : UInt32) :
    ∃ offers, scale.Makes cap granularity offers := by
  cases scale with
  | uniform =>
    obtain ⟨offers, hoffers, -⟩ := Option.map_eq_some_iff.mp (evenWords_eq cap granularity)
    exact ⟨offers, hoffers⟩
  | exponential =>
    -- a granularity of zero offers nothing, and otherwise doubling comes to an end
    by_cases hzero : granularity = 0
    · exact ⟨[], (if_pos hzero).mpr rfl⟩
    · have hpos : 0 < granularity.toNat := Nat.pos_of_ne_zero fun h => hzero (UInt32.toNat_inj.mp h)
      obtain ⟨offers, hrun⟩ := exists_doubles cap granularity.toUInt64 hpos
      exact ⟨offers, (if_neg hzero).mpr hrun⟩

/-- What a scale makes are its offers. -/
theorem Scale.Makes.toNat_eq {scale : Scale} {cap granularity : UInt32} {offers : List UInt32}
    (h : scale.Makes cap granularity offers) :
    offers.map UInt32.toNat = scale.offers cap.toNat granularity.toNat := by
  cases scale with
  | uniform =>
    have hwords : evenWords cap granularity = some offers := h
    have heven := evenWords_eq cap granularity
    rw [hwords] at heven
    exact Option.some.inj heven
  | exponential =>
    show _ = doublingOffers cap.toNat granularity.toNat
    by_cases hzero : granularity = 0
    · have hnone : offers = [] := (if_pos hzero).mp h
      subst hzero hnone
      rfl
    · have hpos : 0 < granularity.toNat := Nat.pos_of_ne_zero fun h => hzero (UInt32.toNat_inj.mp h)
      have hrun : Doubles cap granularity.toUInt64 offers := (if_neg hzero).mp h
      rw [doublingOffers, dif_pos hpos]
      exact hrun.toNat_eq hpos

/-! ## Closed forms -/

/-- How many times a value has to be doubled until it is not less than the cap. -/
structure Reaches (cap value doublings : Nat) : Prop where
  reached : cap ≤ value * 2 ^ doublings
  least : ∀ k < doublings, value * 2 ^ k < cap

namespace Reaches

variable {cap value doublings : Nat}

/-- What takes one more doubling takes the others from the double on. -/
theorem of_succ (h : Reaches cap value (doublings + 1)) : Reaches cap (2 * value) doublings := by
  have hdouble (k : Nat) : 2 * value * 2 ^ k = value * 2 ^ (k + 1) := by
    rw [Nat.pow_succ, Nat.mul_comm 2 value, Nat.mul_assoc, Nat.mul_comm 2]
  refine ⟨?_, fun k hk => ?_⟩
  · rw [hdouble]
    exact h.reached
  · rw [hdouble]
    exact h.least (k + 1) (Nat.succ_lt_succ hk)

theorem exists_of_pos (cap : Nat) (h : 0 < value) : ∃ doublings, Reaches cap value doublings := by
  have hreached : ∃ k, cap ≤ value * 2 ^ k := by
    refine ⟨cap, ?_⟩
    have hpow : cap < 2 ^ cap := Nat.lt_two_pow_self
    exact Nat.le_trans (Nat.le_of_lt hpow) (Nat.le_mul_of_pos_left _ h)
  refine ⟨Nat.find hreached, Nat.find_spec hreached, fun k hk => ?_⟩
  exact Nat.not_le.mp (Nat.find_min hreached hk)

/-- On the way no value gets to twice the cap, unless it starts there. -/
theorem lt_of_le (h : Reaches cap value doublings) {bound k : Nat} (hvalue : value < bound)
    (hcap : 2 * cap ≤ bound) (hk : k ≤ doublings) : value * 2 ^ k < bound := by
  cases k with
  | zero => rwa [Nat.pow_zero, Nat.mul_one]
  | succ k =>
    have hbefore := h.least k hk
    rw [Nat.pow_succ, ← Nat.mul_assoc]
    omega

end Reaches

/-- Doublings are the powers of two times the value, cut at the cap. -/
theorem doubledUpTo_eq {cap value doublings : Nat} (h : 0 < value)
    (hreaches : Reaches cap value doublings) :
    doubledUpTo cap value h = (List.range (doublings + 1)).map fun k =>
      min cap (value * 2 ^ k) := by
  -- down the doublings: as many as the run makes before it reaches the cap
  fun_induction doubledUpTo cap value h generalizing doublings with
  | case1 value h hlt ih =>
    cases doublings with
    | zero =>
      have hreached := hreaches.reached
      omega
    | succ doublings =>
      have hhead : min cap (value * 2 ^ 0) = value := by omega
      have htail (k : Nat) : min cap (2 * value * 2 ^ k) = min cap (value * 2 ^ (k + 1)) := by
        rw [Nat.pow_succ, Nat.mul_comm 2 value, Nat.mul_assoc, Nat.mul_comm 2]
      rw [ih hreaches.of_succ, List.range_succ_eq_map (n := doublings + 1), List.map_cons,
        List.map_map, hhead]
      exact congrArg (value :: ·) (List.map_congr_left fun k _ => htail k)
  | case2 value h hle =>
    cases doublings with
    | zero =>
      have hcap : min cap (value * 2 ^ 0) = cap := by omega
      rw [List.range_one, List.map_singleton, hcap]
    | succ doublings =>
      have hleast := hreaches.least 0 (Nat.succ_pos _)
      omega

theorem getLast?_doubledUpTo (cap : Nat) {value : Nat} (h : 0 < value) :
    (doubledUpTo cap value h).getLast? = some cap := by
  fun_induction doubledUpTo cap value h with
  | case1 value h hlt ih => rw [List.getLast?_cons, ih, Option.getD_some]
  | case2 value h hle => rfl

/-- The offers of a scale without a loop. Multiples are numbered from one on, and there are none
of more than the cap. Doublings are numbered by the exponents of two up to the first that
reaches the cap; the cap is the last one and stands only there. On the way 64 bits are
enough. -/
def Scale.ClosedForm (cap granularity : Nat) (offers : List Nat) : Scale → Prop
  | .uniform =>
    offers = (List.range (cap / granularity)).map (fun k => (k + 1) * granularity) ∧
      (offers = [] ↔ cap < granularity)
  | .exponential =>
    ∃ doublings, Reaches cap granularity doublings ∧
      offers = (List.range (doublings + 1)).map (fun k => min cap (granularity * 2 ^ k)) ∧
      (∀ k ≤ doublings, granularity * 2 ^ k < 2 ^ 64) ∧
      offers.getLast? = some cap ∧ offers.count cap = 1

theorem closedForm_offers (scale : Scale) {cap granularity : Nat} (hgranularity : 0 < granularity)
    (hcap : cap < 2 ^ 32) (hbound : granularity < 2 ^ 32) :
    scale.ClosedForm cap granularity (scale.offers cap granularity) := by
  cases scale with
  | uniform =>
    show evenOffers cap granularity = _ ∧ (evenOffers cap granularity = [] ↔ cap < granularity)
    -- the multiples are counted from one
    refine ⟨?_, evenOffers_eq_nil_iff.trans (or_iff_right (Nat.ne_of_gt hgranularity))⟩
    rw [evenOffers, if_neg (Nat.ne_of_gt hgranularity), List.range'_eq_map_range, List.map_map]
    refine List.map_congr_left fun k _ => ?_
    show (1 + k) * granularity = (k + 1) * granularity
    rw [Nat.add_comm]
  | exponential =>
    have hoffers : doublingOffers cap granularity = doubledUpTo cap granularity hgranularity :=
      dif_pos hgranularity
    -- the number of doublings is the first that reaches the cap
    obtain ⟨doublings, hreaches⟩ := Reaches.exists_of_pos cap hgranularity
    have hlast := getLast?_doubledUpTo cap hgranularity
    have hnodup : (doubledUpTo cap granularity hgranularity).Nodup :=
      (pairwise_doubledUpTo cap hgranularity).imp Nat.ne_of_lt
    show ∃ doublings, Reaches cap granularity doublings ∧ doublingOffers cap granularity = _ ∧ _ ∧
      (doublingOffers cap granularity).getLast? = some cap ∧
      (doublingOffers cap granularity).count cap = 1
    rw [hoffers]
    refine ⟨doublings, hreaches, doubledUpTo_eq hgranularity hreaches, fun k hk => ?_, hlast,
      List.count_eq_one_of_mem hnodup (List.mem_of_getLast? hlast)⟩
    exact hreaches.lt_of_le (by omega) (by omega) hk

/-! ## Menus -/

/-- **Menus have a closed form and never overflow.** For any two positive words of 32 bits and
either scale there is a menu. Its offers are made in words, where nothing overflows and no loop
goes on for ever. They have the closed form of the scale, and they ascend strictly from one
second at least to the cap at most. -/
theorem offers_of_words (scale : Scale) {cap granularity : UInt32} (hcap : 0 < cap)
    (hgranularity : 0 < granularity) :
    ∃ menu, TimeMenu.make? scale cap.toNat granularity.toNat = some menu ∧
      (∃ offers, scale.Makes cap granularity offers) ∧
      (∀ offers, scale.Makes cap granularity offers → offers.map UInt32.toNat = menu.offers) ∧
      scale.ClosedForm cap.toNat granularity.toNat menu.offers ∧
      menu.offers.Pairwise (· < ·) ∧ ∀ offer ∈ menu.offers, 1 ≤ offer ∧ offer ≤ cap.toNat := by
  have hcap' : 0 < cap.toNat := UInt32.lt_iff_toNat_lt.mp hcap
  have hgranularity' : 0 < granularity.toNat := UInt32.lt_iff_toNat_lt.mp hgranularity
  let menu : TimeMenu := ⟨scale, cap.toNat, granularity.toNat, hcap', hgranularity'⟩
  refine ⟨menu, dif_pos ⟨hcap', hgranularity'⟩, exists_makes scale cap granularity, fun _ h =>
    h.toNat_eq, ?_, menu.pairwise_offers, fun offer => menu.bounds_of_mem_offers⟩
  exact closedForm_offers scale hgranularity' cap.toNat_lt granularity.toNat_lt

/-- The greatest cap and a granularity of which even the double is no word of 32 bits. -/
theorem offers_of_words_greatest :
    let cap : UInt32 := 4294967295
    let granularity : UInt32 := 3000000000
    0 < cap ∧ 0 < granularity ∧ ∃ menu,
      TimeMenu.make? .exponential cap.toNat granularity.toNat = some menu ∧
        (∃ offers, Doubles cap 3000000000 offers ∧ offers.map UInt32.toNat = menu.offers) ∧
        menu.offers.getLast? = some 4294967295 ∧ menu.offers.count 4294967295 = 1 ∧
        menu.offers.Pairwise (· < ·) := by
  intro cap granularity
  have hcap : 0 < cap := by decide
  have hgranularity : 0 < granularity := by decide
  obtain ⟨menu, hmenu, ⟨offers, hmakes⟩, hoffers, ⟨doublings, -, -, -, hlast, hcount⟩,
    hascending, -⟩ :=
    offers_of_words .exponential hcap hgranularity
  have hrun : Doubles cap 3000000000 offers := hmakes
  exact ⟨hcap, hgranularity, menu, hmenu, ⟨offers, hrun, hoffers offers hmakes⟩, hlast, hcount,
    hascending⟩

end AlgorithmPortfolio
