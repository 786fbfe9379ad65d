import Mathlib.Algebra.BigOperators.Group.Finset.Basic
import Mathlib.Data.Finset.Sort
import Toolchain.Lib.Dict
import Toolchain.Lib.Simulation
import Toolchain.SatResolver.PartialSolution

/-!
# SatResolver.Report — explaining a failure

`Report` walks over the causes of an incompatibility and writes a line for each derived one; a line that
is referred to later gets a number.  One branch of `visit` decides that and another relies on it, and
they do not fit (`KeyError`, `UnboundLocalError`).  `explain` is the walk over nothing but the numbered
incompatibilities (`constructErrorMessage_returns_iff`).

Models `satresolver/report.py`.  Equal nodes of a derivation are one node; the texts of packages,
versions and incompatibilities are parameters.
-/

namespace Toolchain.SatResolver

open Lib List Incompatibility

/-! ## Texts -/

structure Texts (P V : Type) where
  package : P → String
  version : V → String
  (repr reprCause : Incompatibility P V → String)

section Strings

variable {P V : Type} [LinearOrder V] (texts : Texts P V)

def VersionConstraint.versionString (self : VersionConstraint P V) : String :=
  if self.versions = ∅ then
    texts.package self.packageName
  else if self.versions = self.allVersions then
    texts.package self.packageName ++ ":Any"
  else
    let versionString := ", ".intercalate ((self.versions.sort).map texts.version)
    if self.versions.card = 1 then versionString else "(" ++ versionString ++ ")"

def Term.str : Term P V → String
  | .version constraint =>
    (if constraint.isPositive then "" else "not ") ++ constraint.versionString texts
  | .root isPositive => (if isPositive then "" else "not ") ++ "__ROOT__"

/-- `terms[0]`, as the dependee of a dependency. -/
def Term.dependeeString (self : Term P V) : String :=
  match self with
  | .version constraint =>
    if constraint.versions = constraint.allVersions then
      "all versions of " ++ texts.package constraint.packageName ++ " depend on"
    else
      self.str texts ++ " depends on"
  | .root _ => self.str texts ++ " depends on"

/-- `terms[1]`, as the dependency.  It is negated in the incompatibility. -/
def Term.dependencyString (self : Term P V) : String :=
  match self with
  | .version constraint =>
    if constraint.versions = constraint.allVersions then
      texts.package constraint.packageName
    else
      self.inverse.str texts
  | .root _ => self.inverse.str texts

namespace Incompatibility

def dependencyStr : List (Term P V) → Option String
  | dependee :: dependency :: _ =>
    some (dependee.dependeeString texts ++ " " ++ dependency.dependencyString texts)
  | _ => none

def incompatibleStr : List (Term P V) → Option String
  | [] => none
  | [term] => some (term.str texts ++ " is incompatible")
  | term :: other :: _ => some (term.str texts ++ " is incompatible with " ++ other.str texts)

def str (self : Incompatibility P V) : Option String :=
  match self with
  | .derived terms _ _ => incompatibleStr texts terms
  | .external terms .root => incompatibleStr texts terms
  | .external terms .dependency => dependencyStr texts terms
  | .external _ _ => some (texts.repr self)

def shownTerms : Incompatibility P V → Nat
  | .derived _ _ _ => 1
  | .external _ .root => 1
  | .external _ .dependency => 2
  | .external _ _ => 0

def Printable (self : Incompatibility P V) : Prop :=
  self.shownTerms ≤ self.terms.length

instance (self : Incompatibility P V) : Decidable self.Printable := Nat.decLe _ _

omit [LinearOrder V] in
lemma printable_derived_iff {ts : List (Term P V)} {conf oth : Incompatibility P V} :
    (derived ts conf oth).Printable ↔ ts ≠ [] := by
  cases ts with
  | nil | cons term ts => simp [Printable, shownTerms, terms]

lemma str_isSome_iff (self : Incompatibility P V) : (self.str texts).isSome = true ↔ self.Printable := by
  have hinc (ts : List (Term P V)) : (incompatibleStr texts ts).isSome = true ↔ 1 ≤ ts.length := by
    match ts with
    | [] | [_] | _ :: _ :: _ => simp [incompatibleStr]
  cases self with
  | derived ts conflict other => exact hinc ts
  | external ts cause =>
    cases cause with
    | root => exact hinc ts
    | dependency =>
      match ts with
      | [] | [_] | _ :: _ :: _ => simp [str, dependencyStr, Printable, shownTerms, terms]
    | override | useLatest | useLocked | noVersions | packageNotFound => simp [str, Printable, shownTerms]

end Incompatibility

end Strings

/-! ## The report -/

inductive ReportError
  | indexError | unboundLocalError | keyError
  deriving DecidableEq, Repr

/-- A line of the report.  The last two fields are not in the source: what the line was written for, and
which numbers it mentions. -/
structure ReportLine (P V : Type) where
  message : String
  lineNumber : Option Nat
  incompatibility : Option (Incompatibility P V)
  mention : Option (Incompatibility P V × Nat)
  deriving DecidableEq

structure Report (P V : Type) where
  incompatibility : Incompatibility P V
  lineNumbers : List (Incompatibility P V × Nat)
  lines : List (ReportLine P V)
  derivations : List (Incompatibility P V × Nat)

namespace Incompatibility

variable {P V : Type}

def isDerived : Incompatibility P V → Bool
  | .external _ _ => false
  | .derived _ _ _ => true

/-- Of a `ConflictCause`; the source asks derived incompatibilities only. -/
def isSingleLine : Incompatibility P V → Bool
  | .external _ _ => false
  | .derived _ conflict other => !conflict.isDerived && !other.isDerived

end Incompatibility

namespace Report

variable {P V : Type} [DecidableEq P] [LinearOrder V] (texts : Texts P V)

def printed (incompatibility : Incompatibility P V) : Except ReportError String :=
  match incompatibility.str texts with
  | none => .error .indexError
  | some text => .ok text

def conclusionString (incompatibility : Incompatibility P V) : Except ReportError String :=
  if incompatibility.isFailure then .ok "version solving failed." else printed texts incompatibility

def lineOf (self : Report P V) (incompatibility : Incompatibility P V) : Option Nat :=
  self.lineNumbers.lookup incompatibility

def derivationsOf (self : Report P V) (incompatibility : Incompatibility P V) : Nat :=
  (self.derivations.lookup incompatibility).getD 0

def addLine (self : Report P V) (line : ReportLine P V) : Report P V :=
  { self with lines := self.lines ++ [line] }

def write (self : Report P V) (incompatibility : Incompatibility P V) (message : String)
    (numbered : Bool) (mention : Option (Incompatibility P V × Nat)) : Report P V :=
  if numbered then
    let number := self.lineNumbers.length + 1
    { self with lineNumbers := Dict.assign self.lineNumbers (incompatibility, number) }.addLine
      { message := message, lineNumber := some number, incompatibility := some incompatibility
        mention := mention }
  else
    self.addLine
      { message := message, lineNumber := none, incompatibility := some incompatibility,
        mention := mention }

def writeWithLine (self : Report P V) (incompatibility : Incompatibility P V) (conjunction : String)
    (numbered : Bool) (withLine : Incompatibility P V) (line : Nat) :
    Except ReportError (Report P V) := do
  let withText ← printed texts withLine
  -- the incompatibility itself, not the text that stands for a failure
  let text ← printed texts incompatibility
  return self.write incompatibility s!"{conjunction} because {withText} {line}, {text}" numbered (some (withLine, line))

def writeConcluded (self : Report P V) (incompatibility : Incompatibility P V)
    (conjunction text : String) (conflict : Incompatibility P V) :
    Except ReportError (Report P V) := do
  let conflictText ← printed texts conflict
  match self.lineOf conflict with
  | none => .error .keyError
  | some line =>
    return self.write incompatibility
      s!"{conjunction} because {conflictText} ({line}), {text}" false (some (conflict, line))

def visit (incompatibility : Incompatibility P V) (conclusion : Bool) (self : Report P V) :
    Except ReportError (Report P V) := do
  let numbered := conclusion || decide (1 < self.derivationsOf incompatibility)
  let conjunction := if conclusion || decide (incompatibility = self.incompatibility) then "So,"
    else "And"
  let text ← conclusionString texts incompatibility
  match incompatibility with
  | .external _ _ => return self
  | .derived _ conflict other =>
    match conflict.isDerived, other.isDerived with
    | true, true =>
      -- a line number is never 0, so that `or` asks whether there is one
      match self.lineOf conflict, self.lineOf other with
      | some _, some _ => do
          let _ ← printed texts conflict
          -- a line is written, but `without_line` is not bound in the branch that follows
          .error .unboundLocalError
      | some line, none => do
          let self ← visit other false self
          self.writeWithLine texts incompatibility conjunction numbered conflict line
      | none, some line => do
          let self ← visit conflict false self
          self.writeWithLine texts incompatibility conjunction numbered other line
      | none, none =>
        if other.isSingleLine || conflict.isSingleLine then do
          let self ← visit conflict false self
          let self ← visit other false self
          return self.write incompatibility s!"Thus, {text}" numbered none
        else do
          let self ← visit conflict true self
          let self := self.addLine
            { message := "", lineNumber := none, incompatibility := none, mention := none }
          let self ← visit other false self
          self.writeConcluded texts incompatibility conjunction text conflict
    | true, false => do
        let derivedLine := self.lineOf conflict
        if derivedLine.isSome then do
          let external ← printed texts other
          let derived ← printed texts conflict
          return self.write incompatibility s!"Because {external} and {derived}, {text}" false none
        else do
          let self ← visit conflict false self
          let external ← printed texts other
          return self.write incompatibility s!"{conjunction} because {external}, {text}" false none
    | false, true => do
        -- here `external` is the cause and not the incompatibility
        let external := texts.reprCause conflict
        if (self.lineOf other).isSome then do
          let derived ← printed texts other
          return self.write incompatibility s!"Because {external} and {derived}, {text}" false none
        else do
          let self ← visit other false self
          return self.write incompatibility s!"{conjunction} because {external}, {text}" false none
    | false, false => do
        let conflictText ← printed texts conflict
        let otherText ← printed texts other
        return self.write incompatibility s!"Because {conflictText} and {otherText}, {text}" false none

/-- A table lookup hashes the `repr` of the incompatibility, which shows the texts of its causes. -/
def hashed : Incompatibility P V → Except ReportError Unit
  | .external _ _ => .ok ()
  | .derived _ conflict other => do
      let _ ← printed texts conflict
      let _ ← printed texts other

def increment (derivations : List (Incompatibility P V × Nat))
    (incompatibility : Incompatibility P V) : List (Incompatibility P V × Nat) :=
  Dict.assign derivations (incompatibility, (derivations.lookup incompatibility).getD 0 + 1)

def countDerivations (incompatibility : Incompatibility P V)
    (derivations : List (Incompatibility P V × Nat)) :
    Except ReportError (List (Incompatibility P V × Nat)) := do
  hashed texts incompatibility
  if (derivations.lookup incompatibility).isSome then
    return increment derivations incompatibility
  else
    match incompatibility with
    | .external _ _ => return increment derivations incompatibility
    | .derived _ conflict other => do
        let derivations ← countDerivations conflict derivations
        let derivations ← countDerivations other derivations
        return increment derivations incompatibility

def constructErrorMessage (incompatibility : Incompatibility P V) :
    Except ReportError (List (ReportLine P V)) := do
  let derivations ← countDerivations texts incompatibility []
  let self : Report P V :=
    { incompatibility := incompatibility, lineNumbers := [], lines := [], derivations := derivations }
  if incompatibility.isDerived then do
    let self ← visit texts incompatibility false self
    return self.lines
  else do
    let text ← printed texts incompatibility
    return (self.write incompatibility s!"Because {text}, version solving failed." false none).lines

end Report

namespace Incompatibility

variable {P V : Type} [DecidableEq P] [DecidableEq V]

def causes : Incompatibility P V → List (Incompatibility P V)
  | .external _ _ => []
  | .derived _ conflict other => [conflict, other]

def nodes : Incompatibility P V → Finset (Incompatibility P V)
  | .external terms cause => {.external terms cause}
  | .derived terms conflict other => insert (.derived terms conflict other) (conflict.nodes ∪ other.nodes)

/-- How often an incompatibility is a cause in the derivation of `root`, and once more for the root
itself. -/
def timesCited (root incompatibility : Incompatibility P V) : Nat :=
  (if incompatibility = root then 1 else 0) + ∑ node ∈ root.nodes, node.causes.count incompatibility

def CausesPrintable (self : Incompatibility P V) : Prop :=
  ∀ node ∈ self.nodes, ∀ cause ∈ node.causes, cause.Printable

lemma mem_nodes_self (self : Incompatibility P V) : self ∈ self.nodes := by
  cases self with
  | external terms cause | derived terms conflict other => simp [nodes]

open Finset

section

variable {node root : Incompatibility P V} (h : node ∈ root.nodes)

include h

lemma nodes_subset : node.nodes ⊆ root.nodes := by
  induction root with
  | external terms cause =>
    obtain rfl : node = .external terms cause := by simpa [nodes] using h
    exact Finset.Subset.refl _
  | derived terms conflict other ihc ihot =>
    simp only [nodes, mem_insert, mem_union] at h
    obtain rfl | h | h := h
    · exact Finset.Subset.refl _
    · intro x hx
      simp [nodes, ihc h hx]
    · intro x hx
      simp [nodes, ihot h hx]

lemma sizeOf_le_of_mem_nodes : sizeOf node ≤ sizeOf root := by
  induction root with
  | external terms cause =>
    obtain rfl := Finset.mem_singleton.1 h
    exact le_refl _
  | derived terms conflict other ihc ihot =>
    simp only [nodes, mem_insert, mem_union] at h
    obtain rfl | h | h := h
    · exact le_refl _
    · have := ihc h
      simp only [derived.sizeOf_spec]
      omega
    · have := ihot h
      simp only [derived.sizeOf_spec]
      omega

end

variable {ts : List (Term P V)}

variable {conflict other : Incompatibility P V}

lemma derived_notMem_nodes : derived ts conflict other ∉ conflict.nodes ∪ other.nodes := by
  rw [mem_union]
  rintro (h | h)
  all_goals
    have hsize := sizeOf_le_of_mem_nodes h
    simp only [derived.sizeOf_spec] at hsize
    omega

lemma causesPrintable_external (ts : List (Term P V)) (cause : Cause) :
    (external ts cause).CausesPrintable := by
  simp [CausesPrintable, nodes, causes]

lemma causesPrintable_derived_iff : (derived ts conflict other).CausesPrintable ↔
    (conflict.Printable ∧ other.Printable) ∧ conflict.CausesPrintable ∧ other.CausesPrintable := by
  simp [CausesPrintable, nodes, causes, forall_and, or_imp]

/-- Explains an incompatibility, given those that have a number, and answers those that have one
afterwards.  It stops at one both of whose causes have a number, and where the conflict has none once
both are explained. -/
def explain (root : Incompatibility P V) (incompatibility : Incompatibility P V)
    (conclusion : Bool) (numbered : Finset (Incompatibility P V)) :
    Option (Finset (Incompatibility P V)) :=
  let mark (numbered : Finset (Incompatibility P V)) :=
    if conclusion || decide (1 < root.timesCited incompatibility) then
      insert incompatibility numbered
    else
      numbered
  match incompatibility with
  | .external _ _ => some numbered
  | .derived terms conflict other =>
    match conflict.isDerived, other.isDerived with
    | true, true =>
      match decide (conflict ∈ numbered), decide (other ∈ numbered) with
      | true, true => none
      | true, false => do
          let numbered ← explain root other false numbered
          -- a failure without terms has no text
          if terms = [] then none else some (mark numbered)
      | false, true => do
          let numbered ← explain root conflict false numbered
          if terms = [] then none else some (mark numbered)
      | false, false =>
        if other.isSingleLine || conflict.isSingleLine then do
          let numbered ← explain root conflict false numbered
          let numbered ← explain root other false numbered
          some (mark numbered)
        else do
          let numbered ← explain root conflict true numbered
          let numbered ← explain root other false numbered
          if conflict ∈ numbered then some numbered else none
    | true, false =>
      if conflict ∈ numbered then some numbered else explain root conflict false numbered
    | false, true =>
      if other ∈ numbered then some numbered else explain root other false numbered
    | false, false => some numbered

def Reportable (self : Incompatibility P V) : Prop :=
  (self.isDerived = false → self.Printable) ∧ self.CausesPrintable ∧
    (self.explain self false ∅).isSome = true

end Incompatibility

namespace Report

variable {P V : Type} [DecidableEq P] [LinearOrder V] (texts : Texts P V)

/-! ## Lines and numbers -/

/-- Every number mentioned is the number of an earlier line for that incompatibility. -/
def Grounded (lines : List (ReportLine P V)) : Prop :=
  ∀ before line, before ++ [line] <+: lines → ∀ incompatibility number,
    line.mention = some (incompatibility, number) → ∃ earlier ∈ before,
        earlier.lineNumber = some number ∧ earlier.incompatibility = some incompatibility

/-- A report, some lines it started from and the incompatibilities it has a number for. -/
structure Tracks (root : Incompatibility P V) (start : List (ReportLine P V)) (report : Report P V)
    (numbered : Finset (Incompatibility P V)) : Prop where
  extends_start : start <+: report.lines
  derivations : ∀ node ∈ root.nodes, report.derivationsOf node = root.timesCited node
  numbers : ∀ node, (report.lineOf node).isSome = true ↔ node ∈ numbered
  written : ∀ node number, report.lineOf node = some number →
    ∃ line ∈ report.lines, line.lineNumber = some number ∧ line.incompatibility = some node
  grounded : Grounded report.lines

omit [DecidableEq P] [LinearOrder V] in
lemma Grounded.concat {lines : List (ReportLine P V)} (hlin : Grounded lines) {line : ReportLine P V}
    (hline : ∀ incompatibility number, line.mention = some (incompatibility, number) → ∃ earlier ∈ lines,
    earlier.lineNumber = some number ∧ earlier.incompatibility = some incompatibility) :
    Grounded (lines ++ [line]) := by
  intro bef last hpre
  rw [prefix_concat_iff] at hpre
  obtain hwho | hold := hpre
  · obtain ⟨rfl, hlas⟩ := append_inj' hwho rfl
    obtain rfl : last = line := by simpa using hlas
    exact hline
  · exact hlin bef last hold

variable (inco : Incompatibility P V)

variable (node : Incompatibility P V)

namespace Tracks

variable {root : Incompatibility P V} {start : List (ReportLine P V)} {rep : Report P V}
  {numbered : Finset (Incompatibility P V)}

lemma fromHere (h : Tracks root start rep numbered) : Tracks root rep.lines rep numbered :=
  { h with extends_start := prefix_rfl }

section

variable (h : Tracks root start rep numbered)

include h

lemma addLine (line : ReportLine P V)
    (hlin : ∀ incompatibility number, line.mention = some (incompatibility, number) → ∃ ear ∈ rep.lines,
    ear.lineNumber = some number ∧ ear.incompatibility = some incompatibility) :
    Tracks root start (rep.addLine line) numbered where
  extends_start := h.extends_start.trans (prefix_append _ _)
  derivations := h.derivations
  numbers := h.numbers
  written := by
    intro node number hnum
    obtain ⟨ear, hmem, hear⟩ := h.written node number hnum
    exact ⟨ear, mem_append_left _ hmem, hear⟩
  grounded := h.grounded.concat hlin

lemma write (msg : String) (flag : Bool) (men : Option (Incompatibility P V × Nat))
    (hmen : ∀ node number, men = some (node, number) → ∃ ear ∈ rep.lines,
    ear.lineNumber = some number ∧ ear.incompatibility = some node) :
    Tracks root start (rep.write inco msg flag men) (if flag then insert inco numbered else numbered) := by
  cases flag with
  | false => exact h.addLine _ hmen
  | true =>
    have hloo (node : Incompatibility P V) : (rep.write inco msg true men).lineOf node =
          if node = inco then some (rep.lineNumbers.length + 1)
          else rep.lineOf node :=
      Dict.lookup_assign rep.lineNumbers inco _ node
    refine
      { extends_start := h.extends_start.trans (prefix_append _ _), derivations := h.derivations,
        numbers := ?_
        written := ?_, grounded := h.grounded.concat hmen }
    · intro node
      rw [hloo]
      by_cases hnod : node = inco
      · simp [hnod]
      · simp [hnod, h.numbers node]
    · intro node number hnum
      rw [hloo] at hnum
      by_cases hnod : node = inco
      · rw [if_pos hnod, Option.some_inj] at hnum
        refine ⟨_, mem_append_right _ (mem_singleton_self _), ?_, ?_⟩
        · rw [← hnum]
        · rw [hnod]
      · rw [if_neg hnod] at hnum
        obtain ⟨ear, hmem, hear⟩ := h.written node number hnum
        exact ⟨ear, mem_append_left _ hmem, hear⟩

lemma lineOf_eq_none_iff : rep.lineOf node = none ↔ node ∉ numbered := by
  rw [← h.numbers node]
  cases rep.lineOf node with
  | none | some number => simp

end

end Tracks

/-! ## One step of the walk -/

variable {incompatibility incomp : Incompatibility P V}

section

omit [DecidableEq P]

lemma printed_eq_ok (h : incomp.Printable) : ∃ text, printed texts incomp = .ok text := by
  rw [← str_isSome_iff texts] at h
  obtain ⟨text, htex⟩ := Option.isSome_iff_exists.1 h
  exact ⟨text, by rw [printed, htex]⟩

lemma printed_eq_error (h : ¬ incomp.Printable) : printed texts incomp = .error .indexError := by
  rw [← str_isSome_iff texts, Option.not_isSome_iff_eq_none] at h
  rw [printed, h]

lemma conclusionString_eq_ok (ts : List (Term P V)) (conf oth : Incompatibility P V) :
    ∃ text, conclusionString texts (.derived ts conf oth) = .ok text := by
  cases ts with
  | nil => exact ⟨_, rfl⟩
  | cons term ts =>
    rw [conclusionString]
    split
    · exact ⟨_, rfl⟩
    · exact printed_eq_ok texts (printable_derived_iff.2 (cons_ne_nil term ts))

end

variable {texts} {root : Incompatibility P V} {start : List (ReportLine P V)} {rep : Report P V}
  {numbered : Finset (Incompatibility P V)}

lemma writeWithLine_agree {mid : List (ReportLine P V)} (hsta : start <+: mid)
    (h : Tracks root mid rep numbered) (ts : List (Term P V))
    (conf oth withLine : Incompatibility P V) (con : String) (flag : Bool)
    (line : Nat) (hpri : withLine.Printable)
    (hlin : ∃ ear ∈ mid, ear.lineNumber = some line ∧ ear.incompatibility = some withLine) :
    Agree (Tracks root start) (rep.writeWithLine texts (.derived ts conf oth) con flag withLine line)
    (if ts = [] then none
    else some (if flag then insert (.derived ts conf oth) numbered else numbered)) := by
  obtain ⟨withText, hwit⟩ := printed_eq_ok texts hpri
  rw [writeWithLine, hwit]
  cases ts with
  | nil =>
    rw [printed_eq_error texts fun h => printable_derived_iff.1 h rfl]
    exact .error _
  | cons term ts =>
    have hne := cons_ne_nil term ts
    have hpri : (derived (term :: ts) conf oth).Printable :=
      printable_derived_iff.2 hne
    obtain ⟨text, htex⟩ := printed_eq_ok texts hpri
    rw [htex, if_neg hne]
    apply Agree.ok
    apply ({ h with extends_start := hsta.trans h.extends_start } : Tracks root start rep numbered).write
    intro node number hmen
    obtain ⟨rfl, rfl⟩ : withLine = node ∧ line = number := by simpa using hmen
    obtain ⟨ear, hmem, hear⟩ := hlin
    exact ⟨ear, h.extends_start.subset hmem, hear⟩

lemma writeConcluded_agree (h : Tracks root start rep numbered) (inco conf : Incompatibility P V)
    (con text : String)
    (hpri : conf.Printable) :
    Agree (Tracks root start) (rep.writeConcluded texts inco con text conf)
    (if conf ∈ numbered then some numbered else none) := by
  obtain ⟨conflictText, hcon⟩ := printed_eq_ok texts hpri
  rw [writeConcluded, hcon, ok_bind]
  cases hlin : rep.lineOf conf with
  | none =>
    rw [if_neg ((h.lineOf_eq_none_iff conf).1 hlin)]
    exact .error _
  | some line =>
    rw [if_pos ((h.numbers conf).1 (by simp [hlin]))]
    apply Agree.ok
    apply h.write inco _ false
    intro node number hmen
    obtain ⟨rfl, rfl⟩ : conf = node ∧ line = number := by simpa using hmen
    exact h.written _ _ hlin

lemma Tracks.writeUnnumbered (h : Tracks root start rep numbered) (inco : Incompatibility P V)
    (msg : String) :
    Tracks root start (rep.write inco msg false none) numbered :=
  h.write inco msg false none (by simp)

/-! ## The whole walk -/

lemma visit_agree (con : Bool) (hder : inco.isDerived = true) (hnode : inco ∈ root.nodes)
    (hpri : inco.CausesPrintable) (h : Tracks root start rep numbered) :
    Agree (Tracks root start) (visit texts inco con rep) (root.explain inco con numbered) := by
  induction inco generalizing con start rep numbered with
  | external terms cause => exact absurd hder (by simp [isDerived])
  | derived terms conflict other ihc ihot =>
    obtain ⟨text, htex⟩ := conclusionString_eq_ok texts terms conflict other
    rw [visit, explain, htex, ok_bind]
    rw [h.derivations _ hnode]
    have hnod := nodes_subset hnode
    have hcono : conflict ∈ root.nodes :=
      hnod (by simp [nodes, mem_nodes_self])
    have hotn : other ∈ root.nodes :=
      hnod (by simp [nodes, mem_nodes_self])
    obtain ⟨⟨hcop, hotp⟩, hcoc, hotc⟩ := causesPrintable_derived_iff.1 hpri
    obtain ⟨conflictText, hcot⟩ := printed_eq_ok texts hcop
    obtain ⟨otherText, hott⟩ := printed_eq_ok texts hotp
    -- the cases are those of the source: which causes are derived, and which have a number
    cases hcon : conflict.isDerived with
    | false =>
      cases hoth : other.isDerived with
      | false =>
        simp only [hcon, hoth, hcot, hott, ok_bind]
        exact .ok (h.writeUnnumbered _ _)
      | true =>
        simp only [hcon, hoth]
        by_cases hmem : other ∈ numbered
        · rw [if_pos ((h.numbers other).2 hmem), if_pos hmem, hott]
          exact .ok (h.writeUnnumbered _ _)
        · rw [if_neg (mt (h.numbers other).1 hmem), if_neg hmem]
          exact (ihot false hoth hotn hotc h).andThen _ fun _ _ haft => haft.writeUnnumbered _ _
    | true =>
      cases hoth : other.isDerived with
      | false =>
        simp only [hcon, hoth]
        by_cases hmem : conflict ∈ numbered
        · rw [if_pos ((h.numbers conflict).2 hmem), if_pos hmem, hcot, hott]
          exact .ok (h.writeUnnumbered _ _)
        · rw [if_neg (mt (h.numbers conflict).1 hmem), if_neg hmem, hott]
          exact (ihc false hcon hcono hcoc h).andThen _ fun _ _ haft => haft.writeUnnumbered _ _
      | true =>
        simp only [hcon, hoth]
        cases hcol : rep.lineOf conflict with
        | some conflictLine =>
          have hconf := (h.numbers conflict).1 (by simp [hcol])
          cases hotl : rep.lineOf other with
          | some otherLine =>
            have hothe := (h.numbers other).1 (by simp [hotl])
            simp only [hconf, hothe, decide_true, hcot]
            exact .error _
          | none =>
            have hothe : other ∉ numbered := (h.lineOf_eq_none_iff other).1 hotl
            simp only [hconf, hothe, decide_true, decide_false]
            apply (ihot false hoth hotn hotc h.fromHere).bind
            intro res after haft
            exact writeWithLine_agree h.extends_start haft terms conflict other conflict
              _ _ conflictLine hcop (h.written conflict _ hcol)
        | none =>
          have hconf := (h.lineOf_eq_none_iff conflict).1 hcol
          cases hotl : rep.lineOf other with
          | some otherLine =>
            have hothe := (h.numbers other).1 (by simp [hotl])
            simp only [hconf, hothe, decide_true, decide_false]
            apply (ihc false hcon hcono hcoc h.fromHere).bind
            intro res after haft
            exact writeWithLine_agree h.extends_start haft terms conflict other other
              _ _ otherLine hotp (h.written other _ hotl)
          | none =>
            have hothe : other ∉ numbered := (h.lineOf_eq_none_iff other).1 hotl
            simp only [hconf, hothe, decide_false]
            cases hsin : other.isSingleLine || conflict.isSingleLine with
            | true =>
              simp only [if_true]
              apply (ihc false hcon hcono hcoc h).bind
              intro res after haft
              apply (ihot false hoth hotn hotc haft).bind
              intro res after haft
              exact .ok (haft.write _ _ _ none (by simp))
            | false =>
              simp only [Bool.false_eq_true, if_false]
              apply (ihc true hcon hcono hcoc h).bind
              intro res after haft
              -- the blank line between the two explanations
              have hbla := haft.addLine
                { message := "", lineNumber := none, incompatibility := none,
                  mention := none } (by simp)
              apply (ihot false hoth hotn hotc hbla).bind
              intro res after haft
              exact writeConcluded_agree haft _ conflict _ text hcop

/-! ## Counting derivations -/

def counted (derivations : List (Incompatibility P V × Nat)) (node : Incompatibility P V) : Nat :=
  (derivations.lookup node).getD 0

variable (derivations ders : List (Incompatibility P V × Nat))

lemma lookup_increment :
    (increment ders inco).lookup node = if node = inco then some (counted ders inco + 1)
    else ders.lookup node :=
  Dict.lookup_assign ders inco _ node

lemma counted_increment :
    counted (increment ders inco) node = counted ders node + if node = inco then 1 else 0 := by
  rw [counted, lookup_increment]
  by_cases hnod : node = inco
  · simp [hnod]
  · simp [hnod, counted]

lemma lookup_increment_isSome (incompatibility : Incompatibility P V) :
    ((increment ders incompatibility).lookup node).isSome = true ↔
    (ders.lookup node).isSome = true ∨ node = incompatibility := by
  rw [lookup_increment]
  by_cases hnod : node = incompatibility
  · simp [hnod]
  · simp [hnod]

structure Closed (derivations : List (Incompatibility P V × Nat)) : Prop where
  printable : ∀ node, (derivations.lookup node).isSome = true → node.CausesPrintable
  nodes : ∀ node, (derivations.lookup node).isSome = true →
    ∀ below ∈ node.nodes, (derivations.lookup below).isSome = true

structure CountedWith (incompatibility : Incompatibility P V)
    (before after : List (Incompatibility P V × Nat)) : Prop where
  keys : ∀ node, (after.lookup node).isSome = true ↔ (before.lookup node).isSome = true ∨
    node ∈ incompatibility.nodes
  counts : ∀ node, counted after node = counted before node + (if node = incompatibility then 1 else 0) +
      ∑ below ∈ incompatibility.nodes with (before.lookup below).isSome = false, below.causes.count node

variable {derivations ders : List (Incompatibility P V × Nat)}

lemma CountedWith.closed {after : List (Incompatibility P V × Nat)} (hclo : Closed ders)
    (hpri : incomp.CausesPrintable)
    (h : CountedWith incomp ders after) : Closed after where
  printable := by
    intro node hnod
    obtain hold | hnew := (h.keys node).1 hnod
    · exact hclo.printable node hold
    · exact fun below hbel => hpri below (nodes_subset hnew hbel)
  nodes := by
    intro node hnod below hbel
    rw [h.keys]
    obtain hold | hnew := (h.keys node).1 hnod
    · exact .inl (hclo.nodes node hold below hbel)
    · exact .inr (nodes_subset hnew hbel)

lemma countedWith_increment (hclo : Closed ders) (hkey : (ders.lookup incompatibility).isSome = true) :
    CountedWith incompatibility ders (increment ders incompatibility) where
  keys := by
    intro node
    rw [lookup_increment_isSome]
    constructor
    · rintro (hold | rfl)
      · exact .inl hold
      · exact .inl hkey
    · rintro (hold | hbel)
      · exact .inl hold
      · exact .inl (hclo.nodes incompatibility hkey node hbel)
  counts := by
    intro node
    have hnon : (incompatibility.nodes.filter fun below =>
        (ders.lookup below).isSome = false) = ∅ := by
      rw [Finset.filter_eq_empty_iff]
      intro below hbel
      simp [hclo.nodes incompatibility hkey below hbel]
    rw [counted_increment, hnon, Finset.sum_empty, Nat.add_zero]

lemma countedWith_external (ts : List (Term P V)) (cause : Cause) : CountedWith (.external ts cause) ders
    (increment ders (.external ts cause)) where
  keys := by
    intro node
    rw [lookup_increment_isSome]
    simp [nodes]
  counts := by
    intro node
    have hzer : ∑ below ∈ (external ts cause).nodes with
        (ders.lookup below).isSome = false, below.causes.count node = 0 := by
      apply Finset.sum_eq_zero
      intro below hbel
      obtain rfl := Finset.mem_singleton.1 (Finset.mem_filter.1 hbel).1
      exact count_nil
    rw [counted_increment, hzer, Nat.add_zero]

lemma countedWith_derived {ts : List (Term P V)} {conf oth : Incompatibility P V}
    {mid after : List (Incompatibility P V × Nat)}
    (hkey : (ders.lookup (.derived ts conf oth)).isSome = false)
    (hcon : CountedWith conf ders mid)
    (hoth : CountedWith oth mid after) :
    CountedWith (.derived ts conf oth) ders (increment after (.derived ts conf oth)) where
  keys := by
    intro node
    rw [lookup_increment_isSome, hoth.keys, hcon.keys]
    simp only [nodes, Finset.mem_insert, Finset.mem_union]
    tauto
  counts := by
    intro node
    let new (tbl : List (Incompatibility P V × Nat)) (below : Incompatibility P V) : Prop :=
      (tbl.lookup below).isSome = false
    -- the nodes not in the table: the incompatibility, those of the conflict, and the rest
    have hspl : (derived ts conf oth).nodes.filter (new ders) = insert (.derived ts conf oth)
        (conf.nodes.filter (new ders) ∪ oth.nodes.filter (new mid)) := by
      ext below
      have hmid := hcon.keys below
      simp only [nodes, Finset.mem_filter, Finset.mem_insert, Finset.mem_union, new,
        ← Bool.not_eq_true, hmid]
      by_cases hbel : below = .derived ts conf oth
      · simp [hbel, hkey]
      · tauto
    have hdis : Disjoint (conf.nodes.filter (new ders)) (oth.nodes.filter (new mid)) := by
      rw [Finset.disjoint_left]
      intro below hlef hrig
      have hin := (hcon.keys below).2 (.inr (Finset.mem_filter.1 hlef).1)
      have hout : (mid.lookup below).isSome = false := (Finset.mem_filter.1 hrig).2
      rw [hin] at hout
      exact Bool.noConfusion hout
    have hsel : derived ts conf oth ∉ conf.nodes.filter (new ders) ∪ oth.nodes.filter (new mid) :=
      fun h => derived_notMem_nodes
        (Finset.union_subset_union (Finset.filter_subset ..) (Finset.filter_subset ..) h)
    rw [counted_increment, hoth.counts, hcon.counts]
    show _ = _ + _ + ∑ below ∈ (derived ts conf oth).nodes.filter (new ders), below.causes.count node
    rw [hspl, Finset.sum_insert hsel, Finset.sum_union hdis]
    simp only [causes, count_cons, count_nil, beq_iff_eq, new,
      eq_comm (a := node) (b := conf), eq_comm (a := node) (b := oth)]
    omega

variable (texts)

omit [DecidableEq P] in
lemma hashed_derived (ts : List (Term P V)) (conflict other : Incompatibility P V) :
    hashed texts (derived ts conflict other) =
    if conflict.Printable ∧ other.Printable then .ok () else .error .indexError := by
  rw [hashed]
  by_cases hcon : conflict.Printable
  swap
  · rw [printed_eq_error texts hcon, if_neg (mt And.left hcon)]
    rfl
  obtain ⟨conflictText, hcot⟩ := printed_eq_ok texts hcon
  rw [hcot, ok_bind]
  by_cases hoth : other.Printable
  · obtain ⟨otherText, hott⟩ := printed_eq_ok texts hoth
    rw [hott, if_pos ⟨hcon, hoth⟩]
    rfl
  · rw [printed_eq_error texts hoth, if_neg (mt And.right hoth)]
    rfl

lemma countDerivations_eq_ok (hclo : Closed ders) (hpri : inco.CausesPrintable) :
    ∃ after, countDerivations texts inco ders = .ok after ∧
    CountedWith inco ders after := by
  induction inco generalizing ders with
  | external terms cause =>
    refine ⟨_, ?_, countedWith_external terms cause⟩
    rw [countDerivations]
    exact ite_self _
  | derived terms conflict other ihc ihot =>
    obtain ⟨hcau, hcon, hoth⟩ := causesPrintable_derived_iff.1 hpri
    rw [countDerivations, hashed_derived, if_pos hcau, ok_bind]
    by_cases hkey : (ders.lookup (.derived terms conflict other)).isSome = true
    · rw [if_pos hkey]
      exact ⟨_, rfl, countedWith_increment hclo hkey⟩
    rw [if_neg hkey]
    obtain ⟨mid, hmid, hcou⟩ := ihc hclo hcon
    obtain ⟨after, haft, hcoun⟩ := ihot (hcou.closed hclo hcon) hoth
    refine ⟨_, ?_, countedWith_derived (eq_false_of_ne_true hkey) hcou hcoun⟩
    simp only [hmid, haft, ok_bind]
    rfl

lemma countDerivations_eq_error (hclo : Closed ders) (hpri : ¬ inco.CausesPrintable) :
    countDerivations texts inco ders = .error .indexError := by
  induction inco generalizing ders with
  | external terms cause => exact absurd (causesPrintable_external terms cause) hpri
  | derived terms conflict other ihc ihot =>
    have hkey : ¬ (ders.lookup (.derived terms conflict other)).isSome = true :=
      fun hkey => hpri (hclo.printable _ hkey)
    rw [countDerivations, hashed_derived, if_neg hkey]
    rw [causesPrintable_derived_iff] at hpri
    split
    swap
    · rfl
    rename_i hcau
    by_cases hcon : conflict.CausesPrintable
    · obtain ⟨mid, hmid, hcou⟩ := countDerivations_eq_ok texts conflict hclo hcon
      have hoth : ¬ other.CausesPrintable := fun hoth => hpri ⟨hcau, hcon, hoth⟩
      simp only [hmid, ok_bind, ihot (hcou.closed hclo hcon) hoth]
      rfl
    · simp only [ok_bind, ihc hclo hcon]
      rfl

/-! ## The report -/

lemma closed_nil : Closed ([] : List (Incompatibility P V × Nat)) where
  printable := by simp
  nodes := by simp

lemma tracks_start (h : CountedWith incomp [] ders) : Tracks incomp []
      { incompatibility := incomp, lineNumbers := [], lines := [],
        derivations := ders } ∅ where
  extends_start := prefix_rfl
  derivations := by
    intro node _
    show counted ders node = _
    rw [h.counts]
    simp [counted, timesCited]
  numbers := by simp [lineOf]
  written := by simp [lineOf]
  grounded := by
    intro bef line hpre
    exact absurd (eq_nil_of_prefix_nil hpre) (by simp)

/-- A report is written, with the right numbers in its messages, just if `Reportable` holds. -/
theorem constructErrorMessage_returns_iff (incompatibility : Incompatibility P V) :
    (∃ lines, constructErrorMessage texts incompatibility = .ok lines ∧ Grounded lines) ↔
    incompatibility.Reportable := by
  by_cases hpri : incompatibility.CausesPrintable
  · obtain ⟨der, hcou, hcoun⟩ :=
      countDerivations_eq_ok texts incompatibility closed_nil hpri
    have htra := tracks_start hcoun
    rw [constructErrorMessage, hcou, ok_bind]
    cases hder : incompatibility.isDerived with
    | true =>
      have hagr : Agree _ (visit texts incompatibility false _) _ :=
        visit_agree incompatibility false hder (mem_nodes_self _) hpri htra
      have hlin : Agree (fun lines _ => Grounded lines) _ _ :=
        hagr.andThen lines fun _ _ haft => haft.grounded
      rw [if_pos rfl, hlin.exists_ok_iff]
      simp [Incompatibility.Reportable, hder, hpri]
    | false =>
      obtain ⟨terms, cause, rfl⟩ : ∃ terms cause, incompatibility = .external terms cause := by
        cases incompatibility with
        | external terms cause => exact ⟨terms, cause, rfl⟩
        | derived terms conflict other => exact absurd hder (by simp [isDerived])
      rw [if_neg Bool.false_ne_true]
      by_cases htex : (external terms cause).Printable
      · obtain ⟨text, hprin⟩ := printed_eq_ok texts htex
        rw [hprin, ok_bind]
        exact iff_of_true ⟨_, rfl, (htra.writeUnnumbered _ _).grounded⟩ ⟨fun _ => htex, hpri, rfl⟩
      · rw [printed_eq_error texts htex]
        refine iff_of_false ?_ fun hrep => htex (hrep.1 rfl)
        rintro ⟨lines, hlin, -⟩
        exact absurd hlin (by simp [bind, Except.bind])
  · rw [constructErrorMessage, countDerivations_eq_error texts incompatibility closed_nil hpri]
    constructor
    · rintro ⟨lines, hlin, -⟩
      exact absurd hlin (by simp [bind, Except.bind])
    · rintro ⟨-, hrep, -⟩
      exact absurd hrep hpri

/-! ## Derivations that cannot be reported -/

section

def firstOf (package : Nat) : Term Nat Nat :=
  .version
    { packageName := package, versions := {1}, isPositive := true, allVersions := {1, 2} }

def dependency (package : Nat) : Incompatibility Nat Nat :=
  .external [firstOf package, (firstOf (package + 1)).inverse] .dependency

def shortly (package : Nat) : Incompatibility Nat Nat :=
  .derived [firstOf package] (dependency package) (dependency (package + 1))

def twoChains : Incompatibility Nat Nat :=
  .derived [] (.derived [firstOf 5] (dependency 5) (shortly 1))
    (.derived [firstOf 6] (dependency 6) (shortly 3))

def bothNumbered : Incompatibility Nat Nat :=
  let first := .derived [firstOf 10] (shortly 1) (shortly 2)
  let second := .derived [firstOf 20] first (shortly 3)
  .derived [] (.derived [firstOf 30] second (shortly 4)) (.derived [firstOf 40] first second)

def plainTexts : Texts Nat Nat where
  package package := toString package
  version version := toString version
  repr _ := ""
  reprCause _ := "DependencyCause"

theorem constructErrorMessage_raises :
    (∀ node ∈ twoChains.nodes ∪ bothNumbered.nodes, node ≠ twoChains → node ≠ bothNumbered →
      node.terms ≠ []) ∧
    constructErrorMessage plainTexts twoChains = .error .keyError ∧
    constructErrorMessage plainTexts bothNumbered = .error .unboundLocalError := by
  decide +kernel

end

end Report

end Toolchain.SatResolver
