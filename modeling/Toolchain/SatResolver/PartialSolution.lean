import Mathlib.Data.List.DropRight
import Toolchain.SatResolver.Term

/-!
# SatResolver.PartialSolution — what the resolver has decided and derived so far

A partial solution is the list of assignments, with the decided terms and for every subject the
intersection of its assignments, which backtracking rebuilds.  The counter of attempted solutions, which
nothing reads, and the texts are left out.
-/

namespace Toolchain.SatResolver

inductive Cause
  | root | dependency | override | useLatest | useLocked | noVersions | packageNotFound
  deriving DecidableEq, Repr

/-- Terms that no solution satisfies together, and why.  `derived` is the `ConflictCause`. -/
inductive Incompatibility (P V : Type)
  | external (terms : List (Term P V)) (cause : Cause)
  | derived (terms : List (Term P V)) (conflict other : Incompatibility P V)
  deriving DecidableEq

def Incompatibility.terms {P V : Type} : Incompatibility P V → List (Term P V)
  | .external terms _ => terms
  | .derived terms _ _ => terms

def Incompatibility.isFailure {P V : Type} (self : Incompatibility P V) : Bool :=
  match self.terms with
  | [] => true
  | [.root _] => true
  | _ => false

structure Assignment (P V : Type) where
  term : Term P V
  (decisionLevel index : Nat)
  /-- The incompatibility a derivation follows from; a decision has none. -/
  cause : Option (Incompatibility P V)
  deriving DecidableEq

namespace Assignment

variable {P V : Type}

def subject (self : Assignment P V) : Subject P :=
  self.term.subject

def isDecision (self : Assignment P V) : Bool :=
  self.cause.isNone

end Assignment

structure PartialSolution (P V : Type) where
  assignments : List (Assignment P V)
  decisions : List (Term P V)
  terms : Subject P → Option (Term P V)

variable {P V : Type} [DecidableEq P] [DecidableEq V]

def narrow (old : Option (Term P V)) (term : Term P V) : Option (Term P V) :=
  match old with
  | none => some term
  | some old => old.intersect term

namespace PartialSolution

def empty : PartialSolution P V :=
  { assignments := [], decisions := [], terms := fun _ => none }

def decisionLevel (self : PartialSolution P V) : Nat :=
  self.decisions.length

def isDecided (self : PartialSolution P V) (subject : Subject P) : Bool :=
  self.decisions.any fun term => term.subject = subject

def register (terms : Subject P → Option (Term P V)) (assignment : Assignment P V) :
    Subject P → Option (Term P V) :=
  Function.update terms assignment.subject (narrow (terms assignment.subject) assignment.term)

def append (self : PartialSolution P V) (assignment : Assignment P V) : PartialSolution P V :=
  { self with assignments := self.assignments ++ [assignment], terms := register self.terms assignment }

def decide (self : PartialSolution P V) (term : Term P V) : PartialSolution P V :=
  let decided : PartialSolution P V :=
    { self with decisions := (self.decisions.filter fun old => old.subject ≠ term.subject) ++ [term] }
  decided.append
    { term := term, decisionLevel := decided.decisionLevel, index := self.assignments.length,
      cause := none }

def derive (self : PartialSolution P V) (term : Term P V) (cause : Incompatibility P V) :
    PartialSolution P V :=
  self.append
    { term := term, decisionLevel := self.decisionLevel, index := self.assignments.length,
      cause := some cause }

def backtrack (self : PartialSolution P V) (decisionLevel : Nat) : PartialSolution P V :=
  -- the source pops from the end, and never the first assignment, whose level is 1
  let kept := self.assignments.rdropWhile fun assignment => decisionLevel < assignment.decisionLevel
  let removed := (self.assignments.drop kept.length).map Assignment.subject
  { assignments := kept
    decisions := self.decisions.filter fun term => term.subject ∉ removed
    terms :=
      (kept.filter fun assignment => assignment.subject ∈ removed).foldl register
        fun subject => if subject ∈ removed then none else self.terms subject }

/-- The first of some assignments after which their intersection satisfies the term.  The source raises
where there is none. -/
def satisfierFrom (term : Term P V) (current : Option (Term P V)) :
    List (Assignment P V) → Option (Assignment P V)
  | [] => none
  | assignment :: rest =>
    match narrow current assignment.term with
    | none => none
    | some new =>
      if new.satisfies term then some assignment else satisfierFrom term (some new) rest

def satisfier (self : PartialSolution P V) (term : Term P V) : Option (Assignment P V) :=
  satisfierFrom term none (self.assignments.filter fun assignment => assignment.subject = term.subject)

def satisfies (self : PartialSolution P V) (term : Term P V) : Bool :=
  match self.terms term.subject with
  | none => false
  | some current => current.satisfies term

def isIncompatible (self : PartialSolution P V) (term : Term P V) : Bool :=
  match self.terms term.subject with
  | none => false
  | some current => (current.intersect term).isNone

/-- The positive terms of undecided subjects; `none` where the source would raise an `AttributeError`.
-/
def unsatisfied (self : PartialSolution P V) : Option (List (Term P V)) :=
  let subjects := (self.assignments.map Assignment.subject).dedup
  (subjects.mapM self.terms).map fun terms =>
    terms.filter fun term => term.isPositive && !self.isDecided term.subject

end PartialSolution

end Toolchain.SatResolver
