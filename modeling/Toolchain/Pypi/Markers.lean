import Mathlib.Data.Bool.Basic

/-!
# Pypi.Markers — environment markers of a requirement

`_check_markers_expression` of `satresolver/pypi/python_graph.py` goes once through a list of leaves and
sublists joined by `and` and `or`, and returns as soon as an operator decides.  A false operand before
`and` gives up every later alternative: `a and b or c` is computed as `a and (b or c)`
(`checkExpression_markers`).
-/

namespace Toolchain.Pypi

inductive BoolOp
  | and | or
  deriving DecidableEq, Repr

inductive Marker (L : Type)
  | leaf (marker : L)
  | operator (op : BoolOp)
  | list (markers : List (Marker L))

variable {L : Type}

section Check

-- `_check_marker`
variable (checkMarker : L → Bool)

mutual

def checkOperand : Marker L → Option Bool
  | .leaf marker => some (checkMarker marker)
  | .operator _ => none
  | .list markers => checkMarkersFrom none markers

def checkMarkersFrom (result : Option Bool) : List (Marker L) → Option Bool
  | [] => result
  | .operator .or :: markers =>
    match result with
    | some true => some true
    | some false => checkMarkersFrom result markers
    -- an operator without an operand: the requirement is ignored
    | none => some false
  | .operator .and :: markers =>
    match result with
    | some true => checkMarkersFrom result markers
    | some false => some false
    | none => some false
  | operand :: markers => checkMarkersFrom (checkOperand operand) markers

end

def checkMarkersExpression (markers : List (Marker L)) : Option Bool :=
  checkMarkersFrom checkMarker none markers

end Check

/-! ## Parsed expressions -/

mutual

inductive Expression (L : Type)
  | leaf (marker : L)
  | list (first : Expression L) (rest : Joined L)

inductive Joined (L : Type)
  | done
  | join (op : BoolOp) (operand : Expression L) (rest : Joined L)

end

mutual

def Expression.toMarker : Expression L → Marker L
  | .leaf marker => .leaf marker
  | .list first rest => .list (first.toMarker :: rest.toMarkers)

def Joined.toMarkers : Joined L → List (Marker L)
  | .done => []
  | .join op operand rest => .operator op :: operand.toMarker :: rest.toMarkers

end

def markers (first : Expression L) (rest : Joined L) : List (Marker L) :=
  first.toMarker :: rest.toMarkers

section Value

variable (truth : L → Bool)

mutual

def Expression.value : Expression L → Bool
  | .leaf marker => truth marker
  | .list first rest => rest.valueAfter first.value

def Joined.valueAfter (alternative : Bool) : Joined L → Bool
  | .done => alternative
  | .join .and operand rest => rest.valueAfter (alternative && operand.value)
  | .join .or operand rest => alternative || rest.valueAfter operand.value

end

mutual

def Expression.valueFromRight : Expression L → Bool
  | .leaf marker => truth marker
  | .list first rest => rest.valueFromRightAfter first.valueFromRight

def Joined.valueFromRightAfter (operand : Bool) : Joined L → Bool
  | .done => operand
  | .join .and next rest => operand && rest.valueFromRightAfter next.valueFromRight
  | .join .or next rest => operand || rest.valueFromRightAfter next.valueFromRight

end

end Value

/-! ## What is computed -/

section

variable (truth : L → Bool)

lemma checkFrom_operand (res : Option Bool) (expr : Expression L) (markers : List (Marker L)) :
    checkMarkersFrom truth res (expr.toMarker :: markers) =
    checkMarkersFrom truth (checkOperand truth expr.toMarker) markers := by
  cases expr with
  | leaf marker | list first rest => rfl

mutual

lemma checkOperand_toMarker (expr : Expression L) :
    checkOperand truth expr.toMarker = some (expr.valueFromRight truth) := by
  cases expr with
  | leaf mar => rfl
  | list first rest =>
    rw [Expression.toMarker, checkOperand, checkFrom_operand, checkOperand_toMarker first,
      checkFrom_toMarkers _ rest]
    rfl

lemma checkFrom_toMarkers (operand : Bool) (rest : Joined L) :
    checkMarkersFrom truth (some operand) rest.toMarkers =
    some (rest.valueFromRightAfter truth operand) := by
  cases rest with
  | done => rfl
  | join op next rest =>
    have hres : checkMarkersFrom truth (some operand) (next.toMarker :: rest.toMarkers) =
        some (rest.valueFromRightAfter truth (next.valueFromRight truth)) := by
      rw [checkFrom_operand, checkOperand_toMarker next, checkFrom_toMarkers _ rest]
    -- the operator decides, or the rest of the list has the value
    cases op with
    | and =>
      cases operand with
      | true => exact hres
      | false => rfl
    | or =>
      cases operand with
      | true => rfl
      | false => exact hres

end

lemma checkExpression_markers (first : Expression L) (rest : Joined L) :
    checkMarkersExpression truth (markers first rest) =
    some (rest.valueFromRightAfter truth (first.valueFromRight truth)) := by
  rw [checkMarkersExpression, markers, checkFrom_operand, checkOperand_toMarker, checkFrom_toMarkers]

end

/-! ## Alternatives -/

/-- The operands between one `or` and the next. -/
def Joined.alternatives (first : Expression L) : Joined L → List (List (Expression L))
  | .done => [[first]]
  | .join .and operand rest => (rest.alternatives operand).modifyHead (first :: ·)
  | .join .or operand rest => [first] :: rest.alternatives operand

/-- A leaf that holds, or a list with an alternative whose operands are found, all of them, as are the
operands followed by `and` in the alternatives before it. -/
inductive Expression.Found (truth : L → Bool) : Expression L → Prop
  | leaf {marker : L} (htruth : truth marker = true) : Found truth (.leaf marker)
  | list {first : Expression L} {rest : Joined L} {before after : List (List (Expression L))}
      {found : List (Expression L)} (hsplit : rest.alternatives first = before ++ found :: after)
      (hbefore : ∀ alternative ∈ before, ∀ operand ∈ alternative.dropLast, Found truth operand)
      (hfound : ∀ operand ∈ found, Found truth operand) : Found truth (.list first rest)

lemma Joined.alternatives_eq_cons (first : Expression L) (rest : Joined L) :
    ∃ operands later, rest.alternatives first = (first :: operands) :: later := by
  cases rest with
  | done => exact ⟨[], [], rfl⟩
  | join op operand rest =>
    cases op with
    | or => exact ⟨[], _, rfl⟩
    | and =>
      rcases alternatives_eq_cons operand rest with ⟨operands, later, hrest⟩
      exact ⟨operand :: operands, later, by simp [alternatives, hrest]⟩

section

variable (truth : L → Bool)

mutual

lemma Expression.found_iff (expr : Expression L) :
    expr.Found truth ↔ expr.valueFromRight truth = true := by
  cases expr with
  | leaf marker =>
    constructor
    · rintro ⟨htruth⟩
      exact htruth
    · exact fun h => .leaf h
  | list first rest =>
    rw [Expression.valueFromRight, ← Joined.found_iff first rest (Expression.found_iff first)]
    constructor
    · rintro (_ | ⟨hsplit, hbefore, hfound⟩)
      exact ⟨_, _, _, hsplit, hbefore, hfound⟩
    · rintro ⟨before, found, after, hsplit, hbefore, hfound⟩
      exact .list hsplit hbefore hfound

lemma Joined.found_iff (first : Expression L) (rest : Joined L)
    (hfirst : first.Found truth ↔ first.valueFromRight truth = true) :
    (∃ before found after, rest.alternatives first = before ++ found :: after ∧
      (∀ alternative ∈ before, ∀ operand ∈ alternative.dropLast, operand.Found truth) ∧
      ∀ operand ∈ found, operand.Found truth) ↔
    rest.valueFromRightAfter truth (first.valueFromRight truth) = true := by
  cases rest with
  | done =>
    rw [Joined.valueFromRightAfter, ← hfirst]
    constructor
    · rintro ⟨_ | ⟨_, _⟩, found, after, hsplit, hbefore, hfound⟩
      · obtain ⟨rfl, rfl⟩ : [first] = found ∧ [] = after := by simpa [Joined.alternatives] using hsplit
        exact hfound first (.head _)
      · simp [Joined.alternatives] at hsplit
    · intro h
      exact ⟨[], [first], [], rfl, by simp, by simpa using h⟩
  | join op operand rest =>
    have ih := Joined.found_iff operand rest (Expression.found_iff operand)
    rcases rest.alternatives_eq_cons operand with ⟨operands, later, hrest⟩
    cases op with
    | or =>
      rw [Joined.valueFromRightAfter, Bool.or_eq_true, ← hfirst, ← ih]
      constructor
      · rintro ⟨_ | ⟨_, before⟩, found, after, hsplit, hbefore, hfound⟩
        · obtain ⟨rfl, -⟩ : [first] = found ∧ _ = after := by simpa [Joined.alternatives] using hsplit
          exact .inl (hfound first (.head _))
        · obtain ⟨-, hsplit⟩ := List.cons.inj hsplit
          exact .inr ⟨before, found, after, hsplit, fun a ha => hbefore a (.tail _ ha), hfound⟩
      · rintro (h | ⟨before, found, after, hsplit, hbefore, hfound⟩)
        · exact ⟨[], [first], _, rfl, by simp, by simpa using h⟩
        · exact ⟨[first] :: before, found, after, by simp [Joined.alternatives, hsplit],
            by simpa using hbefore, hfound⟩
    | and =>
      rw [Joined.valueFromRightAfter, Bool.and_eq_true, ← hfirst, ← ih]
      -- the first operand belongs to the first of the alternatives
      simp only [Joined.alternatives, hrest, List.modifyHead_cons]
      constructor
      · rintro ⟨_ | ⟨_, before⟩, found, after, hsplit, hbefore, hfound⟩
        · obtain ⟨rfl, rfl⟩ := List.cons.inj hsplit
          exact ⟨hfound first (.head _), [], _, _, rfl, by simp, fun x hx => hfound x (.tail _ hx)⟩
        · obtain ⟨rfl, rfl⟩ := List.cons.inj hsplit
          simp only [List.forall_mem_cons, List.dropLast_cons_cons] at hbefore
          exact ⟨hbefore.1.1, _ :: before, found, after, rfl,
            List.forall_mem_cons.2 ⟨hbefore.1.2, hbefore.2⟩, hfound⟩
      · rintro ⟨h, _ | ⟨_, before⟩, found, after, hsplit, hbefore, hfound⟩
        · obtain ⟨rfl, rfl⟩ := List.cons.inj hsplit
          exact ⟨[], _, _, rfl, by simp, List.forall_mem_cons.2 ⟨h, hfound⟩⟩
        · obtain ⟨rfl, rfl⟩ := List.cons.inj hsplit
          refine ⟨_ :: before, found, after, rfl, ?_, hfound⟩
          simp only [List.forall_mem_cons, List.dropLast_cons_cons] at hbefore ⊢
          exact ⟨⟨h, hbefore.1⟩, hbefore.2⟩

end

mutual

lemma Expression.value_of_fromRight (expr : Expression L) (h : expr.valueFromRight truth = true) :
    expr.value truth = true := by
  cases expr with
  | leaf marker => exact h
  | list first rest => exact Joined.value_of_fromRight rest (Expression.value_of_fromRight first) h

lemma Joined.value_of_fromRight (rest : Joined L) {operand alternative : Bool}
    (hoperand : operand = true → alternative = true)
    (h : rest.valueFromRightAfter truth operand = true) : rest.valueAfter truth alternative = true := by
  cases rest with
  | done => exact hoperand h
  | join op next rest =>
    have hnext := Expression.value_of_fromRight next
    cases op with
    | and =>
      rw [Joined.valueFromRightAfter, Bool.and_eq_true] at h
      exact Joined.value_of_fromRight rest (by simp [hoperand h.1]; exact hnext) h.2
    | or =>
      rw [Joined.valueFromRightAfter, Bool.or_eq_true] at h
      rw [Joined.valueAfter, Bool.or_eq_true]
      exact h.imp hoperand (Joined.value_of_fromRight rest hnext)

end

/-- A parsed expression is evaluated to its value exactly if it is false, or has a true alternative
such that every operand followed by `and` before it is true, and so on in the lists within. -/
theorem checkMarkersExpression_eq_value_iff (first : Expression L) (rest : Joined L) :
    checkMarkersExpression truth (markers first rest) = some ((Expression.list first rest).value truth) ↔
    ((Expression.list first rest).value truth = true → (Expression.list first rest).Found truth) := by
  rw [checkExpression_markers, Option.some_inj, Expression.found_iff]
  change (Expression.list first rest).valueFromRight truth = _ ↔ _
  have hle := Expression.value_of_fromRight truth (.list first rest)
  cases hvalue : (Expression.list first rest).value truth with
  | true => simp
  | false => simpa [hvalue] using hle

end

theorem checkMarkersExpression_hides_alternative :
    let rest : Joined Bool := .join .and (.leaf true) (.join .or (.leaf true) .done)
    checkMarkersExpression id (markers (.leaf false) rest) = some false ∧
      (Expression.list (.leaf false) rest).value id = true := by
  decide

end Toolchain.Pypi
