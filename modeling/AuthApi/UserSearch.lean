import AuthApi.Text

/-!
# Searching accounts

An administrator finds accounts by how their address or username begins
(`found_iff`). `prefix_pattern` escapes the characters of the query that
`LIKE` does not take for themselves. Rust has the query in lower case,
and PostgreSQL the columns; the two need not agree on what that is.
-/

namespace AuthApi

open Text

variable (toLowercase lower : List Char → List Char)

/-! ## The pattern -/

/-- What the loop of `prefix_pattern` adds for a character. -/
def patternOf (c : Char) : List Char := if c ∈ ['%', '_', '\\'] then ['\\', c] else [c]

def prefixPattern (query : List Char) : List Char :=
  (toLowercase (trim query)).flatMap patternOf ++ ['%']

theorem like_patternOf_append (c : Char) (pattern : List Char) :
    like (patternOf c ++ pattern) = startsWith (c = ·) (like pattern) := by
  rw [patternOf]
  split
  · rfl
  · exact like_cons ‹_› pattern

/-- The rest of the pattern is met by the rest of the string, character by
character of `w`, up to the `%`. -/
theorem like_flatMap_patternOf {w s : List Char} :
    like (w.flatMap patternOf ++ ['%']) s = true ↔ w <+: s := by
  induction w generalizing s with
  | nil => simp [like_percent]
  | cons c w ih =>
    rw [List.flatMap_cons, List.append_assoc, like_patternOf_append]
    cases s with
    | nil => simp [startsWith]
    | cons d s => simp [startsWith, ih, List.cons_prefix_cons]

/-- **A pattern is matched by what begins with its query**, trimmed and in
lower case, also where the query has wildcards and backslashes. -/
theorem matched_iff_starts_with_query (query s : List Char) :
    like (prefixPattern toLowercase query) s = true ↔ toLowercase (trim query) <+: s := by
  rw [prefixPattern]
  exact like_flatMap_patternOf

example : prefixPattern id " a_b%c\\ ".toList = "a\\_b\\%c\\\\%".toList ∧
    like (prefixPattern id "a_b".toList) "axb".toList = false := by
  decide +kernel

/-! ## The search -/

/-- A blank query is none. -/
def searchPattern (query : Option (List Char)) : Option (List Char) :=
  (query.filter fun q => !(trim q).isEmpty).map (prefixPattern toLowercase)

/-- The condition of `search` on the pattern, which may be `NULL`. -/
def matchesSearch (pattern : Option (List Char)) (email username : List Char) : Bool :=
  pattern.all fun pattern => like pattern (lower email) || like pattern (lower username)

/-- An account is found unless there is a query, not blank, with which
neither its address nor its username begins. -/
theorem found_iff (query : Option (List Char)) (email username : List Char) :
    matchesSearch lower (searchPattern toLowercase query) email username = true ↔
      ∀ q ∈ query, trim q ≠ [] →
        toLowercase (trim q) <+: lower email ∨ toLowercase (trim q) <+: lower username := by
  cases query with
  | none => simp [matchesSearch, searchPattern]
  | some q =>
    by_cases hblank : trim q = [] <;>
      simp [matchesSearch, searchPattern, prefixPattern, Option.filter, hblank,
        like_flatMap_patternOf]

end AuthApi
