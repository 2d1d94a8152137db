import AlgorithmPortfolio.Text.Split

/-!
# Cutting a text where it was put together

- `splitFirst_append`: a text is cut at the separator between its parts, if the first part has
  none.
- `not_mem_of_splitFirst`: the part before a cut has no separator.
- `FollowsPair`: what can stand after the last doubled separator. A text is cut before it and
  nowhere else (`splitLastPair_eq_some_iff`), and not at all if it has no doubled separator
  (`splitLastPair_eq_none_iff`).
- `lines_append_newline`: a line feed ends the line before it.
- `IsPlainLine`, `lines_flatMap`: lines without line feeds and without a carriage return at
  their end are the lines of the text that they make up.
- `newline_not_mem_of_mem_lines`: no line has a line feed.
- `Splits`, `splits_iff`: the rule by which a text has lines. Every text has them, and they are
  the ones that are read.
-/

namespace AlgorithmPortfolio.Text

/-! ## At one separator -/

theorem splitFirst_append {sep : Char} {before : List Char} (hbefore : sep ∉ before)
    (after : List Char) : splitFirst sep (before ++ sep :: after) = some (before, after) := by
  induction before with
  | nil => simp [splitFirst]
  | cons c rest ih =>
    obtain ⟨hc, hrest⟩ := List.ne_and_not_mem_of_not_mem_cons hbefore
    simp [splitFirst, Ne.symm hc, ih hrest]

theorem not_mem_of_splitFirst {sep : Char} {cs : List Char} {parts : List Char × List Char}
    (h : splitFirst sep cs = some parts) : sep ∉ parts.1 := by
  induction cs generalizing parts with
  | nil => simp [splitFirst] at h
  | cons c rest ih =>
    by_cases hc : c = sep
    · simp only [splitFirst, if_pos hc, Option.some.injEq] at h
      subst h
      exact List.not_mem_nil
    · simp only [splitFirst, if_neg hc, Option.map_eq_some_iff] at h
      obtain ⟨inner, hinner, rfl⟩ := h
      exact List.not_mem_cons_of_ne_of_not_mem (Ne.symm hc) (ih hinner)

/-! ## At the last doubled separator -/

/-- What can stand after the last doubled separator of a text: it has none itself, and does not
make one with the separators before it. -/
structure FollowsPair (sep : Char) (after : List Char) : Prop where
  no_pair : ¬[sep, sep] <:+: after
  no_start : after.head? ≠ some sep

/-- With one more separator before it there is still no doubled one. -/
theorem followsPair_iff {sep : Char} {after : List Char} :
    FollowsPair sep after ↔ ¬[sep, sep] <:+: sep :: after := by
  have hstart : [sep, sep] <+: sep :: after ↔ after.head? = some sep := by
    rw [List.cons_prefix_cons, List.singleton_prefix_iff_head?_eq_some]
    exact and_iff_right rfl
  rw [List.infix_cons_iff, hstart, not_or]
  exact ⟨fun h => ⟨h.no_start, h.no_pair⟩, fun h => ⟨h.2, h.1⟩⟩

theorem splitLastPair_cons_of_some {sep c : Char} {rest : List Char} {parts : List Char × List Char}
    (h : splitLastPair sep rest = some parts) :
    splitLastPair sep (c :: rest) = some (c :: parts.1, parts.2) := by
  simp only [splitLastPair, h]

theorem splitLastPair_cons_of_none {sep c : Char} {rest : List Char}
    (h : splitLastPair sep rest = none) :
    splitLastPair sep (c :: rest) =
      if [sep, sep] <+: c :: rest then some ([], rest.tail) else none := by
  simp only [splitLastPair, h]
  cases rest with
  | nil => simp
  | cons d tail => simp [List.cons_prefix_cons, eq_comm]

theorem splitLastPair_eq_none_iff {sep : Char} {cs : List Char} :
    splitLastPair sep cs = none ↔ ¬[sep, sep] <:+: cs := by
  induction cs with
  | nil => simp [splitLastPair]
  | cons c rest ih =>
    rw [List.infix_cons_iff, not_or, ← ih]
    cases hrest : splitLastPair sep rest with
    | some parts => simp [splitLastPair_cons_of_some hrest]
    | none => simp [splitLastPair_cons_of_none hrest]

/-- Nothing after a cut could have been cut off instead. -/
theorem followsPair_of_splitLastPair {sep : Char} {cs : List Char} {parts : List Char × List Char}
    (h : splitLastPair sep cs = some parts) : FollowsPair sep parts.2 := by
  induction cs generalizing parts with
  | nil => simp [splitLastPair] at h
  | cons c rest ih =>
    cases hrest : splitLastPair sep rest with
    | some inner =>
      rw [splitLastPair_cons_of_some hrest, Option.some.injEq] at h
      subst h
      exact @ih inner hrest
    | none =>
      -- the separator at the head of the rest is the second one of this cut
      have htext := splitLastPair_eq_some h
      rw [splitLastPair_cons_of_none hrest, Option.ite_none_right_eq_some, Option.some.injEq] at h
      obtain ⟨-, rfl⟩ := h
      rw [List.nil_append, List.cons.injEq] at htext
      rw [followsPair_iff, ← htext.2]
      exact splitLastPair_eq_none_iff.mp hrest

theorem splitLastPair_append {sep : Char} {after : List Char} (h : FollowsPair sep after)
    (before : List Char) :
    splitLastPair sep (before ++ sep :: sep :: after) = some (before, after) := by
  induction before with
  | nil =>
    have hnone : splitLastPair sep (sep :: after) = none :=
      splitLastPair_eq_none_iff.mpr (followsPair_iff.mp h)
    rw [List.nil_append, splitLastPair_cons_of_none hnone, if_pos ⟨after, rfl⟩]
    rfl
  | cons c rest ih => exact splitLastPair_cons_of_some ih

/-- A text is cut into parts that make it up, the second of which can stand after the last
doubled separator. -/
theorem splitLastPair_eq_some_iff {sep : Char} {cs : List Char} {parts : List Char × List Char} :
    splitLastPair sep cs = some parts ↔
      cs = parts.1 ++ sep :: sep :: parts.2 ∧ FollowsPair sep parts.2 := by
  constructor
  · intro h
    exact ⟨splitLastPair_eq_some h, followsPair_of_splitLastPair h⟩
  · rintro ⟨rfl, hfollows⟩
    exact splitLastPair_append hfollows parts.1

/-! ## Lines -/

theorem linesFrom_append {line : List Char} (hline : '\n' ∉ line) (pending rest : List Char) :
    linesFrom pending (line ++ rest) = linesFrom (line.reverse ++ pending) rest := by
  induction line generalizing pending with
  | nil => rfl
  | cons c line ih =>
    obtain ⟨hc, hline⟩ := List.ne_and_not_mem_of_not_mem_cons hline
    simp [linesFrom, Ne.symm hc, ih hline]

theorem lines_append_newline {line : List Char} (hline : '\n' ∉ line) (rest : List Char) :
    lines (line ++ '\n' :: rest) = dropReturn line :: lines rest := by
  rw [lines, linesFrom_append hline]
  simp [linesFrom, lines]

theorem dropReturn_of_getLast?_ne {line : List Char} (h : line.getLast? ≠ some '\r') :
    dropReturn line = line := by
  rw [dropReturn]
  split
  · exact absurd ‹_› h
  · rfl

/-- A line that stays as it is when it is written and read. -/
structure IsPlainLine (line : List Char) : Prop where
  newline_not_mem : '\n' ∉ line
  getLast?_ne : line.getLast? ≠ some '\r'

theorem lines_flatMap {all : List (List Char)} (hall : ∀ line ∈ all, IsPlainLine line) :
    lines (all.flatMap fun line => line ++ ['\n']) = all := by
  induction all with
  | nil => rfl
  | cons line rest ih =>
    have hline := hall line List.mem_cons_self
    rw [List.flatMap_cons, List.append_assoc, List.singleton_append,
      lines_append_newline hline.newline_not_mem, dropReturn_of_getLast?_ne hline.getLast?_ne,
      ih fun l hl => hall l (List.mem_cons_of_mem _ hl)]

theorem mem_of_mem_dropReturn {c : Char} {line : List Char} (h : c ∈ dropReturn line) :
    c ∈ line := by
  rw [dropReturn] at h
  split at h
  · exact (List.dropLast_sublist line).subset h
  · exact h

theorem newline_not_mem_of_mem_linesFrom {pending cs line : List Char} (hpending : '\n' ∉ pending)
    (hline : line ∈ linesFrom pending cs) : '\n' ∉ line := by
  -- what is pending has no newline, and neither has what is added to it
  induction cs generalizing pending with
  | nil =>
    rw [linesFrom] at hline
    split at hline
    · exact absurd hline List.not_mem_nil
    · rw [List.mem_singleton.mp hline]
      exact fun h => hpending (List.mem_reverse.mp h)
  | cons c rest ih =>
    rw [linesFrom] at hline
    split at hline
    · rcases List.mem_cons.mp hline with rfl | hline
      · exact fun h => hpending (List.mem_reverse.mp (mem_of_mem_dropReturn h))
      · exact ih List.not_mem_nil hline
    · rename_i hc
      exact ih (List.not_mem_cons_of_ne_of_not_mem (Ne.symm hc) hpending) hline

theorem newline_not_mem_of_mem_lines {cs line : List Char} (h : line ∈ lines cs) : '\n' ∉ line :=
  newline_not_mem_of_mem_linesFrom List.not_mem_nil h

/-! ### The rule of lines -/

/-- A text and its lines. A line ends in a line feed, or in a carriage return and a line feed,
which are no part of it. A last line that does not end keeps all its characters. -/
inductive Splits : List Char → List (List Char) → Prop
  | done : Splits [] []
  | unended {line : List Char} (nonempty : line ≠ []) (hline : '\n' ∉ line) : Splits line [line]
  | feed {line rest : List Char} {more : List (List Char)} (hline : IsPlainLine line)
      (hrest : Splits rest more) : Splits (line ++ '\n' :: rest) (line :: more)
  | returnFeed {line rest : List Char} {more : List (List Char)} (hline : '\n' ∉ line)
      (hrest : Splits rest more) : Splits (line ++ '\r' :: '\n' :: rest) (line :: more)

theorem lines_append_returnFeed {line : List Char} (hline : '\n' ∉ line) (rest : List Char) :
    lines (line ++ '\r' :: '\n' :: rest) = line :: lines rest := by
  have hreturn : '\n' ∉ line ++ ['\r'] := by simpa using hline
  have hdrop : dropReturn (line ++ ['\r']) = line := by simp [dropReturn]
  rw [List.append_cons, lines_append_newline hreturn, hdrop]

theorem lines_of_unended {line : List Char} (nonempty : line ≠ []) (hline : '\n' ∉ line) :
    lines line = [line] := by
  have happend := linesFrom_append hline [] []
  rw [List.append_nil, List.append_nil] at happend
  rw [lines, happend, linesFrom, if_neg (List.reverse_ne_nil_iff.mpr nonempty),
    List.reverse_reverse]

theorem Splits.lines_eq {cs : List Char} {all : List (List Char)} (h : Splits cs all) :
    lines cs = all := by
  induction h with
  | done => rfl
  | unended nonempty hline => exact lines_of_unended nonempty hline
  | feed hline _ ih =>
    rw [lines_append_newline hline.newline_not_mem, dropReturn_of_getLast?_ne hline.getLast?_ne, ih]
  | returnFeed hline _ ih => rw [lines_append_returnFeed hline, ih]

theorem splits_lines (cs : List Char) : Splits cs (lines cs) := by
  induction hlength : cs.length using Nat.strongRecOn generalizing cs with
  | _ length ih =>
    cases hsplit : splitFirst '\n' cs with
    | none =>
      have hline := splitFirst_eq_none_iff.mp hsplit
      -- the text ends here, with or without a last line
      by_cases hempty : cs = []
      · subst hempty
        exact .done
      · rw [lines_of_unended hempty hline]
        exact .unended hempty hline
    | some parts =>
      obtain ⟨line, rest⟩ := parts
      obtain rfl := splitFirst_eq_some hsplit
      have hline : '\n' ∉ line := not_mem_of_splitFirst hsplit
      have hrest := ih rest.length (by simp at hlength; omega) rest rfl
      by_cases hreturn : line.getLast? = some '\r'
      · -- the carriage return before the line feed goes with it
        obtain ⟨start, rfl⟩ := List.getLast?_eq_some_iff.mp hreturn
        have hstart : '\n' ∉ start := fun h => hline (List.mem_append_left _ h)
        rw [List.append_assoc, List.singleton_append, lines_append_returnFeed hstart]
        exact .returnFeed hstart hrest
      · rw [lines_append_newline hline, dropReturn_of_getLast?_ne hreturn]
        exact .feed ⟨hline, hreturn⟩ hrest

/-- Every text has its lines, and no others. -/
theorem splits_iff {cs : List Char} {all : List (List Char)} : Splits cs all ↔ lines cs = all := by
  constructor
  · exact Splits.lines_eq
  · rintro rfl
    exact splits_lines cs

end AlgorithmPortfolio.Text
