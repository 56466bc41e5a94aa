/-!
# Splitting text

Text is cut at the characters of a class. What stands between two cuts may be empty, so there is
always one piece more than there are such characters.
-/

namespace ComponentGen.Text

/-- The pieces between the characters of a class. -/
def splitWhere (isCut : Char → Bool) : List Char → List (List Char)
  | [] => [[]]
  | c :: rest =>
    if isCut c then [] :: splitWhere isCut rest
    else
      match splitWhere isCut rest with
      | [] => [[c]]
      | piece :: more => (c :: piece) :: more

/-- Every cut adds one piece. -/
theorem length_splitWhere (isCut : Char → Bool) (cs : List Char) :
    (splitWhere isCut cs).length = cs.countP isCut + 1 := by
  induction cs with
  | nil => rfl
  | cons c rest ih =>
    cases cut : isCut c with
    | true => simp [splitWhere, cut, ih]
    | false =>
      cases pieces : splitWhere isCut rest with
      | nil => simp [pieces] at ih
      | cons piece more => simpa [splitWhere, cut, pieces] using ih

end ComponentGen.Text
