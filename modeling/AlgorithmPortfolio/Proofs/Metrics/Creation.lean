import AlgorithmPortfolio.Metrics.Creation
import Mathlib.Computability.RegularExpressions
import Mathlib.Data.List.Forall2

/-!
# Metrics of any word

Metrics can be given any word for their names to start with. It is sanitized first, so that no
library has a reason to refuse one of them. So schedules can start with unused metrics
(`MetricSet.fresh`) whatever word their settings have: creation gives these and nothing else.

- `Metrics.namePattern`: what names look like, as a regular expression. Valid names are those
  that match (`isValidName_iff`).
- `Metrics.Sanitized`: what becomes of a word, character by character (`getElem?_sanitize`).
  Nothing is left to do for a second time (`sanitize_sanitize`).
- `Metric.wellFormed_declaration`: all metrics of a set are well-formed.
- `MetricSet.create_eq_ok_iff`: a set is created exactly if all of its metrics are made.
- `create_of_any_word`: what the names are, and that the metrics can be created.
-/

namespace AlgorithmPortfolio

namespace Metrics

/-! ## The pattern of names -/

/-- The characters from one to another one. -/
def span (first last : Char) : List Char :=
  (List.range' first.toNat (last.toNat + 1 - first.toNat)).map Char.ofNat

/-- The letters of the alphabet, small and capital. -/
def letters : List Char := span 'a' 'z' ++ span 'A' 'Z'

/-- The decimal digits. -/
def digits : List Char := span '0' '9'

/-- One of some characters. -/
def oneOf (chars : List Char) : RegularExpression Char := (chars.map RegularExpression.char).sum

/-- A letter, an underscore or a colon, and then any number of those and digits. -/
def namePattern : RegularExpression Char :=
  oneOf (letters ++ ['_', ':']) * (oneOf (letters ++ digits ++ ['_', ':'])).star

theorem mem_oneOf {chars cs : List Char} : cs ∈ (oneOf chars).matches' ↔ ∃ c ∈ chars, cs = [c] := by
  rw [oneOf]
  induction chars with
  | nil => simp [Language.notMem_zero]
  | cons c rest ih =>
    rw [List.map_cons, List.sum_cons, RegularExpression.matches'_add, Language.mem_add, ih,
      List.exists_mem_cons_iff]
    rfl

theorem mem_star_oneOf {chars cs : List Char} :
    cs ∈ (oneOf chars).star.matches' ↔ ∀ c ∈ cs, c ∈ chars := by
  rw [RegularExpression.matches'_star, Language.mem_kstar]
  constructor
  · -- a star is a list of parts of one character each
    rintro ⟨parts, rfl, hparts⟩ c hc
    obtain ⟨part, hpart, hmem⟩ := List.mem_flatten.mp hc
    obtain ⟨c', hc', rfl⟩ := mem_oneOf.mp (hparts part hpart)
    obtain rfl := List.mem_singleton.mp hmem
    exact hc'
  · intro hall
    refine ⟨cs.map fun c => [c], ?_, ?_⟩
    · rw [← List.flatMap_def, List.flatMap_singleton']
    · intro part hpart
      obtain ⟨c, hc, rfl⟩ := List.mem_map.mp hpart
      exact mem_oneOf.mpr ⟨c, hall c hc, rfl⟩

theorem mem_span {first last : Char} (below : last.toNat < 0xD800) {c : Char} :
    c ∈ span first last ↔ first ≤ c ∧ c ≤ last := by
  show _ ↔ first.toNat ≤ c.toNat ∧ c.toNat ≤ last.toNat
  rw [span, List.mem_map]
  constructor
  · -- the numbers below the surrogates are characters
    rintro ⟨n, hn, rfl⟩
    obtain ⟨hfirst, hlast⟩ := List.mem_range'_1.mp hn
    have hvalid : n.isValidChar := .inl (by omega)
    have hchar : (Char.ofNat n).toNat = n := by
      rw [Char.ofNat, dif_pos hvalid]
      rfl
    omega
  · rintro ⟨hfirst, hlast⟩
    exact ⟨c.toNat, List.mem_range'_1.mpr (by omega), Char.ofNat_toNat c⟩

theorem mem_letters (c : Char) : c ∈ letters ↔ c.isAlpha = true := by
  rw [letters, List.mem_append, mem_span (by decide), mem_span (by decide), or_comm]
  show _ ↔ (decide ('A' ≤ c ∧ c ≤ 'Z') || (decide ('a' ≤ c) && decide (c ≤ 'z'))) = true
  simp

theorem mem_digits (c : Char) : c ∈ digits ↔ c.isDigit = true := by
  rw [digits, mem_span (by decide)]
  show _ ↔ (decide ('0' ≤ c) && decide (c ≤ '9')) = true
  simp

theorem isLeadChar_iff (c : Char) : c ∈ letters ++ ['_', ':'] ↔ isLeadChar c = true := by
  simp [isLeadChar, mem_letters, or_assoc]

theorem isNameChar_iff (c : Char) : c ∈ letters ++ digits ++ ['_', ':'] ↔ isNameChar c = true := by
  simp [isNameChar, Char.isAlphanum, mem_letters, mem_digits, or_assoc]

/-- Valid names are those that match the pattern. -/
theorem isValidName_iff (cs : List Char) : isValidName cs = true ↔ cs ∈ namePattern.matches' := by
  rw [namePattern, RegularExpression.matches'_mul, Language.mem_mul]
  -- the first character has a class of its own
  cases cs with
  | nil =>
    constructor
    · intro h
      cases h
    · rintro ⟨start, hstart, rest, -, happend⟩
      obtain ⟨c, -, rfl⟩ := mem_oneOf.mp hstart
      cases happend
  | cons c rest =>
    rw [isValidName, Bool.and_eq_true, List.all_eq_true]
    constructor
    · rintro ⟨hlead, hrest⟩
      refine ⟨[c], mem_oneOf.mpr ⟨c, (isLeadChar_iff c).mpr hlead, rfl⟩, rest,
        mem_star_oneOf.mpr ?_, rfl⟩
      intro c' hc'
      exact (isNameChar_iff c').mpr (hrest c' hc')
    · rintro ⟨start, hstart, rest', hrest, happend⟩
      obtain ⟨c', hlead, rfl⟩ := mem_oneOf.mp hstart
      obtain ⟨rfl, rfl⟩ := List.cons.inj happend
      refine ⟨(isLeadChar_iff c').mp hlead, fun c hc => ?_⟩
      exact (isNameChar_iff c).mp (mem_star_oneOf.mp hrest c hc)

/-! ## Sanitized words -/

/-- Whether a name may have a character at a position. -/
def isAllowedAt : Nat → Char → Bool
  | 0 => isLeadChar
  | _ + 1 => isNameChar

theorem isAllowedAt_allowed (position : Nat) (c : Char) :
    isAllowedAt position (allowed (isAllowedAt position) c) = true := by
  cases position with
  | zero => exact isLeadChar_allowed c
  | succ position => exact isNameChar_allowed c

/-- An underscore is no sign that something was replaced, since it is allowed everywhere. -/
theorem allowed_eq_self_iff (position : Nat) (c : Char) :
    allowed (isAllowedAt position) c = c ↔ isAllowedAt position c = true := by
  constructor
  · intro h
    rw [← h]
    exact isAllowedAt_allowed position c
  · intro h
    rw [allowed, if_pos h]

/-- Every character is sanitized by itself. -/
theorem getElem?_sanitize (cs : List Char) (position : Nat) :
    (sanitize cs)[position]? = cs[position]?.map (allowed (isAllowedAt position)) := by
  cases cs with
  | nil => rfl
  | cons c rest =>
    cases position with
    | zero => rfl
    | succ position =>
      rw [sanitize, List.getElem?_cons_succ, List.getElem?_cons_succ, List.getElem?_map]
      rfl

theorem sanitize_eq_self_iff (cs : List Char) :
    sanitize cs = cs ↔ ∀ position c, cs[position]? = some c → isAllowedAt position c = true := by
  constructor
  · intro h position c hc
    have hkept := getElem?_sanitize cs position
    rw [h, hc, Option.map_some, Option.some.injEq] at hkept
    exact (allowed_eq_self_iff position c).mp hkept.symm
  · intro h
    refine List.ext_getElem? fun position => ?_
    rw [getElem?_sanitize]
    cases hc : cs[position]? with
    | none => rfl
    | some c => rw [Option.map_some, (allowed_eq_self_iff position c).mpr (h position c hc)]

theorem sanitize_sanitize (cs : List Char) : sanitize (sanitize cs) = sanitize cs := by
  rw [sanitize_eq_self_iff]
  intro position c hc
  rw [getElem?_sanitize, Option.map_eq_some_iff] at hc
  obtain ⟨original, -, rfl⟩ := hc
  exact isAllowedAt_allowed position original

/-- How the start of names comes from a word. -/
structure Sanitized (word start : String) : Prop where
  length_eq : start.length = word.length
  characters : ∀ position,
    start.toList[position]? = word.toList[position]?.map (allowed (isAllowedAt position))
  unchanged_iff : start = word ↔ ∀ position c, word.toList[position]? = some c →
    isAllowedAt position c = true
  again : String.ofList (sanitize start.toList) = start

theorem sanitized_ofList (word : String) :
    Sanitized word (String.ofList (sanitize word.toList)) where
  length_eq := by rw [← String.length_toList, String.toList_ofList, length_sanitize,
    String.length_toList]
  characters position := by rw [String.toList_ofList, getElem?_sanitize]
  unchanged_iff := by rw [← String.toList_inj, String.toList_ofList, sanitize_eq_self_iff]
  again := by rw [String.toList_ofList, sanitize_sanitize]

/-! ## Libraries -/

/-- A library that refuses malformed declarations only. It does not have to refuse all of them,
and may look at names alone. -/
def RefusesOnlyMalformed {ε μ : Type} (make : Maker ε μ) : Prop :=
  ∀ declaration fault, make declaration = .error fault → ¬ declaration.WellFormed

theorem refusesOnlyMalformed_checked : RefusesOnlyMalformed checked := by
  intro declaration fault h hwellFormed
  rw [checked, if_pos hwellFormed] at h
  cases h

theorem bind_eq_ok_iff {ε β γ : Type} {first : Except ε β} {next : β → Except ε γ} {c : γ} :
    first >>= next = .ok c ↔ ∃ b, first = .ok b ∧ next b = .ok c := by
  constructor
  · intro h
    cases first with
    | error fault => cases h
    | ok b => exact ⟨b, rfl, h⟩
  · rintro ⟨b, rfl, h⟩
    exact h

theorem expect_eq_ok_iff {ε β : Type} {expectation : String} {result : Except ε β} {b : β} :
    expect expectation result = .ok b ↔ result = .ok b := by
  cases result with
  | error fault => simp [expect]
  | ok given => simp [expect]

/-- All expectations are met exactly if nothing is refused. -/
theorem mapM_expect_eq_ok_iff {ε β γ : Type} {expectation : String} {f : β → Except ε γ}
    {xs : List β} {ys : List γ} :
    (xs.mapM fun x => expect expectation (f x)) = .ok ys ↔
      List.Forall₂ (fun x y => f x = .ok y) xs ys := by
  induction xs generalizing ys with
  | nil =>
    rw [List.mapM_nil, List.forall₂_nil_left_iff]
    exact ⟨fun h => (Except.ok.inj h).symm, fun h => h ▸ rfl⟩
  | cons x rest ih =>
    rw [List.mapM_cons, List.forall₂_cons_left_iff]
    simp only [bind_eq_ok_iff, expect_eq_ok_iff, ih]
    constructor
    · rintro ⟨y, hfirst, made, hrest, hys⟩
      exact ⟨y, made, hfirst, hrest, (Except.ok.inj hys).symm⟩
    · rintro ⟨y, made, hfirst, hrest, rfl⟩
      exact ⟨y, hfirst, made, hrest, rfl⟩

end Metrics

open Metrics

/-! ## Metrics of a set -/

theorem Metric.isValidName_name (word : String) (metric : Metric) :
    isValidName (metric.name (MetricSet.fresh word)).toList = true := by
  have hending : metric.ending.toList.all isNameChar = true := by cases metric <;> decide +kernel
  simpa [name, MetricSet.fresh] using isValidName_join hending word.toList

theorem Metric.wellFormed_declaration (word : String) (metric : Metric) :
    (metric.declaration (MetricSet.fresh word)).WellFormed where
  name_valid := metric.isValidName_name word
  help_given := by
    show metric.help ≠ ""
    cases metric <;> decide
  labels_valid := by
    show ∀ label ∈ metric.labels, isValidLabel label.toList = true
    cases metric <;> decide
  labels_distinct := by
    show metric.labels.Nodup
    cases metric <;> decide

/-- A set is created exactly if a library makes all of its metrics. -/
theorem MetricSet.create_eq_ok_iff {ε μ : Type} {make : Maker ε μ} {word : String}
    {metrics : MetricSet} {made : List μ} :
    create make word = .ok (metrics, made) ↔ metrics = fresh word ∧
      List.Forall₂ (fun metric handle => make (metric.declaration metrics) = .ok handle)
        Metric.all made := by
  rw [create, bind_eq_ok_iff]
  simp only [mapM_expect_eq_ok_iff]
  constructor
  · rintro ⟨handles, hmade, hresult⟩
    cases hresult
    exact ⟨rfl, hmade⟩
  · rintro ⟨rfl, hmade⟩
    exact ⟨made, hmade, rfl⟩

/-- A library that refuses malformed declarations only makes all metrics of a set. -/
theorem exists_made {ε μ : Type} {make : Maker ε μ} (lawful : RefusesOnlyMalformed make)
    (word : String) (list : List Metric) :
    ∃ made, List.Forall₂
      (fun metric handle => make (metric.declaration (MetricSet.fresh word)) = .ok handle)
      list made := by
  induction list with
  | nil => exact ⟨[], .nil⟩
  | cons metric rest ih =>
    obtain ⟨made, hrest⟩ := ih
    cases hmetric : make (metric.declaration (MetricSet.fresh word)) with
    | error fault => exact absurd (metric.wellFormed_declaration word) (lawful _ fault hmetric)
    | ok handle => exact ⟨handle :: made, .cons hmetric hrest⟩

/-- **Metrics can be created with any word.** Take any library that refuses malformed
declarations only. The start of the names has as many characters as the word. Each of them is
the character of the word if that is allowed where it stands, and an underscore otherwise, so
the start is the word itself exactly if all characters are allowed. To sanitize it again does
not change it. All names match the pattern, and all metrics are made. -/
theorem create_of_any_word {ε μ : Type} {make : Maker ε μ} (lawful : RefusesOnlyMalformed make)
    (word : String) :
    let metrics := MetricSet.fresh word
    Sanitized word metrics.start ∧ (MetricSet.fresh metrics.start).start = metrics.start ∧
      (∀ metric : Metric, (metric.name metrics).toList ∈ namePattern.matches') ∧
      ∃ made, MetricSet.create make word = .ok (metrics, made) ∧
        List.Forall₂ (fun metric handle => make (metric.declaration metrics) = .ok handle)
          Metric.all made := by
  intro metrics
  have hsanitized : Sanitized word metrics.start := sanitized_ofList word
  refine ⟨hsanitized, hsanitized.again, ?_, ?_⟩
  · intro metric
    exact (isValidName_iff _).mp (metric.isValidName_name word)
  · obtain ⟨made, hmade⟩ := exists_made lawful word Metric.all
    exact ⟨made, MetricSet.create_eq_ok_iff.mpr ⟨rfl, hmade⟩, hmade⟩

/-- A digit at the start, a letter of another alphabet and a hyphen, all of which are
replaced. -/
theorem create_of_any_word_replaced :
    RefusesOnlyMalformed checked ∧ (MetricSet.fresh "7µ-a").start.length = 4 ∧
      (MetricSet.fresh "7µ-a").start ≠ "7µ-a" ∧
      (MetricSet.fresh (MetricSet.fresh "7µ-a").start).start = "___a" ∧
      "___a_rounds".toList ∈ namePattern.matches' ∧
      ∃ made, MetricSet.create checked "7µ-a" = .ok (MetricSet.fresh "7µ-a", made) ∧
        made.length = 6 := by
  obtain ⟨hsanitized, hagain, hnames, made, hcreate, hmade⟩ :=
    create_of_any_word refusesOnlyMalformed_checked "7µ-a"
  have hstart : (MetricSet.fresh "7µ-a").start = "___a" := by decide +kernel
  have hname : Metric.rounds.name (MetricSet.fresh "7µ-a") = "___a_rounds" := by decide +kernel
  refine ⟨refusesOnlyMalformed_checked, hsanitized.length_eq, ?_, hagain.trans hstart, ?_, made,
    hcreate, hmade.length_eq.symm⟩
  · intro hsame
    have hseven := hsanitized.unchanged_iff.mp hsame 0 '7' (by decide +kernel)
    exact absurd hseven (by decide)
  · rw [← hname]
    exact hnames .rounds

end AlgorithmPortfolio
