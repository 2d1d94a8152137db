/-!
# Names of metrics

The name of a metric starts with a letter, an underscore or a colon and goes on with those and
digits.

- `isValidName`: the rule.
- `sanitize`: any text made fit to start a name, character by character.
- `isValidName_join`: what follows such a start after an underscore completes a valid name.
-/

namespace AlgorithmPortfolio.Metrics

/-- Characters that a name may start with. -/
def isLeadChar (c : Char) : Bool := c.isAlpha || c == '_' || c == ':'

/-- Characters that a name may go on with. -/
def isNameChar (c : Char) : Bool := c.isAlphanum || c == '_' || c == ':'

/-- Whether characters make up a name. -/
def isValidName : List Char → Bool
  | [] => false
  | c :: rest => isLeadChar c && rest.all isNameChar

/-- The character itself if it is allowed, or else an underscore. -/
def allowed (isAllowed : Char → Bool) (c : Char) : Char := if isAllowed c then c else '_'

/-- Characters with an underscore in place of every one that a name may not have there. -/
def sanitize : List Char → List Char
  | [] => []
  | c :: rest => allowed isLeadChar c :: rest.map (allowed isNameChar)

/-- A name made of a start and an ending. -/
def joinName (start ending : List Char) : List Char := start ++ '_' :: ending

@[simp] theorem length_sanitize (cs : List Char) : (sanitize cs).length = cs.length := by
  cases cs <;> simp [sanitize]

theorem isLeadChar_allowed (c : Char) : isLeadChar (allowed isLeadChar c) = true := by
  by_cases h : isLeadChar c = true
  · simp [allowed, h]
  · simp only [allowed, if_neg h]
    decide

theorem isNameChar_allowed (c : Char) : isNameChar (allowed isNameChar c) = true := by
  by_cases h : isNameChar c = true
  · simp [allowed, h]
  · simp only [allowed, if_neg h]
    decide

theorem isValidName_join {ending : List Char} (h : ending.all isNameChar = true) (cs : List Char) :
    isValidName (joinName (sanitize cs) ending) = true := by
  cases cs with
  | nil => simpa [sanitize, joinName, isValidName, isLeadChar] using h
  | cons c rest =>
    have hrest : (rest.map (allowed isNameChar)).all isNameChar = true := by
      simp [List.all_eq_true, isNameChar_allowed]
    have hunderscore : isNameChar '_' = true := by decide
    simp [sanitize, joinName, isValidName, isLeadChar_allowed, hrest, hunderscore, h,
      List.all_append]

end AlgorithmPortfolio.Metrics
