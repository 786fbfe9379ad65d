import Mathlib.Data.Finset.Basic
import Mathlib.Data.Finset.Lattice.Lemmas
import Mathlib.Data.Finset.Option

/-!
# SatResolver.Term — statements about a package

A `Term` says that a package is present at one of some versions, or that it is not; then it also holds
when the package is absent, which `satisfies` and `intersect` take care of and `difference` does not.

Models `satresolver/term.py`.  Terms are combined with one subject only; for others the source raises
`ValueError`.
-/

namespace Toolchain.SatResolver

open Finset

inductive Subject (P : Type)
  | root
  | package (name : P)
  deriving DecidableEq, Repr

structure VersionConstraint (P V : Type) where
  packageName : P
  versions : Finset V
  isPositive : Bool
  allVersions : Finset V
  deriving DecidableEq

inductive Term (P V : Type)
  | version (constraint : VersionConstraint P V)
  | root (isPositive : Bool)
  deriving DecidableEq

variable {P V : Type} [DecidableEq V]

namespace VersionConstraint

def allowedVersions (self : VersionConstraint P V) : Finset V :=
  if self.isPositive then self.allVersions ∩ self.versions else self.allVersions \ self.versions

def satisfies (self other : VersionConstraint P V) : Bool :=
  if !self.isPositive && other.isPositive then false else decide
    (self.allowedVersions ⊆ other.allowedVersions)

def inverse (self : VersionConstraint P V) : VersionConstraint P V :=
  { self with isPositive := !self.isPositive }

def intersect (self other : VersionConstraint P V) : Option (VersionConstraint P V) :=
  if !self.isPositive && !other.isPositive then
    let versions := self.versions ∪ other.versions
    if versions = ∅ then none else some { self with versions := versions, isPositive := false }
  else
    let versions := self.allowedVersions ∩ other.allowedVersions
    if versions = ∅ then none else some { self with versions := versions, isPositive := true }

def difference (self other : VersionConstraint P V) : Option (VersionConstraint P V) :=
  let versions := self.allowedVersions \ other.allowedVersions
  if versions = ∅ then none else some { self with versions := versions, isPositive := true }

end VersionConstraint

namespace Term

def subject : Term P V → Subject P
  | .version constraint => .package constraint.packageName
  | .root _ => .root

def isPositive : Term P V → Bool
  | .version constraint => constraint.isPositive
  | .root isPositive => isPositive

def satisfies : Term P V → Term P V → Bool
  | .version self, .version other => self.satisfies other
  | .root self, .root other => self == other
  | _, _ => false

def inverse : Term P V → Term P V
  | .version self => .version self.inverse
  | .root self => .root (!self)

def intersect : Term P V → Term P V → Option (Term P V)
  | .version self, .version other => (self.intersect other).map .version
  | .root self, .root other => if self = other then some (.root self) else none
  | _, _ => none

def difference : Term P V → Term P V → Option (Term P V)
  | .version self, .version other => (self.difference other).map .version
  | .root self, .root other => if self = other then none else some (.root self)
  | _, _ => none

end Term

namespace VersionConstraint

variable {a b c : VersionConstraint P V}

lemma allowed_subset (a : VersionConstraint P V) : a.allowedVersions ⊆ a.allVersions := by
  unfold allowedVersions
  split
  · exact inter_subset_left
  · exact sdiff_subset

lemma allowed_inverse (a : VersionConstraint P V) :
    a.inverse.allowedVersions = a.allVersions \ a.allowedVersions := by
  cases hpos : a.isPositive with
  | true | false => simp [allowedVersions, inverse, hpos]

lemma inter_eq_some (hall : a.allVersions = b.allVersions) (h : a.intersect b = some c) :
    c.packageName = a.packageName ∧ c.allVersions = a.allVersions ∧
      c.isPositive = (a.isPositive || b.isPositive) ∧
    c.allowedVersions = a.allowedVersions ∩ b.allowedVersions ∧
    (c.isPositive = true → c.allowedVersions.Nonempty) := by
  unfold intersect at h
  by_cases hneg : (!a.isPositive && !b.isPositive) = true
  · have hsig : a.isPositive = false ∧ b.isPositive = false := by simpa using hneg
    rcases hsig with ⟨ha, hb⟩
    by_cases hemp : a.versions ∪ b.versions = ∅
    · simp [ha, hb, hemp] at h
    · obtain rfl : _ = c := by simpa [ha, hb, hemp] using h
      refine ⟨rfl, rfl, by simp [ha, hb], ?_, by simp⟩
      simp [allowedVersions, ha, hb, hall, sdiff_union_distrib]
  · have hsig : (a.isPositive || b.isPositive) = true := by
      cases ha : a.isPositive <;> cases hb : b.isPositive <;> simp_all
    by_cases hemp : a.allowedVersions ∩ b.allowedVersions = ∅
    · simp [hneg, hemp] at h
    obtain rfl : _ = c := by simpa [hneg, hemp] using h
    have hsub : a.allowedVersions ∩ b.allowedVersions ⊆ a.allVersions :=
      inter_subset_left.trans a.allowed_subset
    have hallo : ({ a with
        versions := a.allowedVersions ∩ b.allowedVersions
        isPositive := true } : VersionConstraint P V).allowedVersions =
          a.allowedVersions ∩ b.allowedVersions := by
      simpa [allowedVersions] using hsub
    refine ⟨rfl, rfl, hsig.symm, hallo, fun _ => ?_⟩
    rw [hallo]
    exact nonempty_iff_ne_empty.2 hemp

lemma inter_eq_none_iff (hpos : a.isPositive = true ∨ b.isPositive = true) :
    a.intersect b = none ↔ a.allowedVersions ∩ b.allowedVersions = ∅ := by
  unfold intersect
  rcases hpos with hpos | hpos <;> simp [hpos]

section

variable (hall : a.allVersions = b.allVersions) (hsat : a.satisfies b = false)

include hall hsat

lemma inter_inverse_isSome (hcom : a.intersect b ≠ none) : ∃ c, a.intersect b.inverse = some c := by
  rcases hres : a.intersect b.inverse with _ | c
  swap
  · exact ⟨c, rfl⟩
  exfalso
  by_cases hpos : a.isPositive = true ∨ b.isPositive = false
  · -- no version of `a` is outside `b`, so that `a` satisfies `b`
    have hemp : a.allowedVersions ∩ b.inverse.allowedVersions = ∅ := by
      refine (inter_eq_none_iff ?_).1 hres
      rcases hpos with hpos | hpos
      · exact .inl hpos
      · exact .inr (by simp [inverse, hpos])
    have hsub : a.allowedVersions ⊆ b.allowedVersions := by
      intro v hv
      by_contra hvb
      have hmem : v ∈ a.allowedVersions ∩ b.inverse.allowedVersions := by
        rw [allowed_inverse, mem_inter, mem_sdiff, ← hall]
        exact ⟨hv, a.allowed_subset hv, hvb⟩
      rw [hemp] at hmem
      cases notMem_empty v hmem
    have hsig : (!a.isPositive && b.isPositive) = false := by rcases hpos with hpos | hpos <;> simp [hpos]
    simp [satisfies, hsig, hsub] at hsat
  · -- both version sets are empty, so that `b` is excluded
    have hsig : a.isPositive = false ∧ b.isPositive = true := by simpa using hpos
    rcases hsig with ⟨ha, hb⟩
    have hemp : a.versions = ∅ ∧ b.versions = ∅ := by simpa [intersect, inverse, ha, hb] using hres
    apply hcom
    refine (inter_eq_none_iff (.inr hb)).2 ?_
    simp [allowedVersions, hb, hemp.2]

lemma satisfies_inverse (hnon : a.intersect b = none) : a.satisfies b.inverse = true := by
  by_cases hneg : a.isPositive = false ∧ b.isPositive = false
  · -- two negative constraints exclude each other only if both exclude no version at all
    rcases hneg with ⟨ha, hb⟩
    have hemp : a.versions = ∅ ∧ b.versions = ∅ := by simpa [intersect, ha, hb] using hnon
    simp [satisfies, allowedVersions, ha, hb, hemp.2, hall] at hsat
  · have hpos : a.isPositive = true ∨ b.isPositive = true := by
      cases ha : a.isPositive with
      | true => exact .inl rfl
      | false =>
        cases hb : b.isPositive with
        | true => exact .inr rfl
        | false => exact absurd ⟨ha, hb⟩ hneg
    have hdis := (inter_eq_none_iff hpos).1 hnon
    have hsub : a.allowedVersions ⊆ b.inverse.allowedVersions := by
      intro v hv
      rw [allowed_inverse, mem_sdiff, ← hall]
      refine ⟨a.allowed_subset hv, fun hvb => ?_⟩
      have hmem := mem_inter.2 ⟨hv, hvb⟩
      rw [hdis] at hmem
      cases notMem_empty v hmem
    have hsig : (!a.isPositive && b.inverse.isPositive) = false := by
      rcases hpos with hpos | hpos <;> simp [inverse, hpos]
    simp [satisfies, hsig, hsub]

end

lemma satisfies_iff (a b : VersionConstraint P V) : a.satisfies b = true ↔
    (b.isPositive = true → a.isPositive = true) ∧ a.allowedVersions ⊆ b.allowedVersions := by
  unfold satisfies
  cases a.isPositive <;> cases b.isPositive <;> simp

/-! ## Terms as sets of states -/

/-- The versions that the package may have; `none` says that it is absent. -/
def states (self : VersionConstraint P V) : Finset (Option V) :=
  if self.isPositive then self.allowedVersions.map .some else insertNone self.allowedVersions

@[simp] lemma none_mem_states : none ∈ a.states ↔ a.isPositive = false := by
  cases hpos : a.isPositive <;> simp [states, hpos]

@[simp] lemma some_mem_states {v : V} : some v ∈ a.states ↔ v ∈ a.allowedVersions := by
  cases hpos : a.isPositive <;> simp [states, hpos]

lemma states_inverse (a : VersionConstraint P V) :
    a.inverse.states = insertNone a.allVersions \ a.states := by
  ext state
  cases state with
  | none => simp [inverse]
  | some v => simp [allowed_inverse]

lemma satisfies_iff_states (a b : VersionConstraint P V) : a.satisfies b = true ↔ a.states ⊆ b.states := by
  rw [satisfies_iff, subset_iff, subset_iff, Option.forall]
  cases ha : a.isPositive <;> cases hb : b.isPositive <;> simp [ha, hb]

lemma inter_eq_none_iff_states (ha : a.versions.Nonempty) :
    a.intersect b = none ↔ Disjoint a.states b.states := by
  by_cases hpos : a.isPositive = true ∨ b.isPositive = true
  · have hdis : Disjoint a.states b.states ↔ a.allowedVersions ∩ b.allowedVersions = ∅ := by
      rw [disjoint_left, Option.forall, ← disjoint_iff_inter_eq_empty, disjoint_left]
      rcases hpos with hpos | hpos <;> simp [hpos]
    rw [hdis, inter_eq_none_iff hpos]
  · -- absence is common to two negative constraints
    have hneg : a.isPositive = false ∧ b.isPositive = false := by simpa using hpos
    have hsta : ¬Disjoint a.states b.states := fun h =>
      disjoint_left.1 h (none_mem_states.2 hneg.1) (none_mem_states.2 hneg.2)
    simp [intersect, hneg, hsta, ha.ne_empty]

/-- The operations on terms of one package are those on their sets of states. -/
theorem states_algebra (a b : VersionConstraint P V) (hall : a.allVersions = b.allVersions)
    (ha : a.versions.Nonempty) : (a.satisfies b = true ↔ a.states ⊆ b.states) ∧
    (a.intersect b = none ↔ Disjoint a.states b.states) ∧
    (∀ c, a.intersect b = some c → c.states = a.states ∩ b.states) ∧
    a.inverse.states = insertNone a.allVersions \ a.states ∧
    (a.satisfies b = true ↔ a.intersect b.inverse = none) := by
  have hsub : ∀ c : VersionConstraint P V, c.states ⊆ insertNone c.allVersions := by
    intro c state
    cases state with
    | none => simp
    | some v => simpa using fun hv => c.allowed_subset hv
  refine ⟨a.satisfies_iff_states b, inter_eq_none_iff_states ha, ?_, a.states_inverse, ?_⟩
  · intro c hc
    rcases inter_eq_some hall hc with ⟨_, _, hsig, hallo, _⟩
    ext state
    cases state with
    | none => simp [hsig]
    | some v => simp [hallo]
  · calc a.satisfies b = true ↔ a.states ⊆ b.states := a.satisfies_iff_states b
      _ ↔ Disjoint a.states b.inverse.states := by
        rw [states_inverse]
        exact (disjoint_sdiff_iff_le (hall ▸ hsub a) (hsub b)).symm
      _ ↔ a.intersect b.inverse = none := (inter_eq_none_iff_states ha).symm

theorem states_algebra_two_versions :
    (mk () {1} false {1, 2}).intersect ⟨(), {2}, false, {1, 2}⟩ ≠ none :=
  fun h => absurd ((states_algebra ⟨(), {1}, false, {1, 2}⟩ ⟨(), {2}, false, {1, 2}⟩ rfl ⟨1, by simp⟩).2.1.1 h)
    (by decide)

end VersionConstraint

namespace Term

variable {all : P → Finset V} {a b c t : Term P V}

def Over (all : P → Finset V) : Term P V → Prop
  | .version constraint => constraint.allVersions = all constraint.packageName
  | .root _ => True

omit [DecidableEq V] in
lemma Over.allVersions_eq {x y : VersionConstraint P V} (hx : (version x).Over all)
    (hy : (version y).Over all) (hsub : (version x).subject = (version y).subject) :
    x.allVersions = y.allVersions := by
  have hnam : x.packageName = y.packageName := by simpa [subject] using hsub
  calc x.allVersions = all x.packageName := hx
    _ = all y.packageName := by rw [hnam]
    _ = y.allVersions := hy.symm

open VersionConstraint Term

section

omit [DecidableEq V]

@[simp] lemma subject_inverse (t : Term P V) : t.inverse.subject = t.subject := by
  cases t <;> rfl

lemma Over.inverse (ht : t.Over all) : t.inverse.Over all := by
  cases t with
  | version c => exact ht
  | root b => trivial

end

@[simp] lemma satisfies_self (t : Term P V) : t.satisfies t = true := by
  cases t with
  | version c => simp [satisfies, satisfies_iff]
  | root b => simp [satisfies]

lemma inter_cases (h : a.intersect b = some c) :
    (∃ x y z, a = version x ∧ b = version y ∧ c = version z ∧ x.intersect y = some z) ∨
    ∃ x, a = root x ∧ b = root x ∧ c = root x := by
  cases a with
  | version x =>
    cases b with
    | version y =>
      rcases hxy : x.intersect y with _ | z
      · simp [intersect, hxy] at h
      · obtain rfl : version z = c := by simpa [intersect, hxy] using h
        exact .inl ⟨x, y, z, rfl, rfl, rfl, hxy⟩
    | root _ => simp [intersect] at h
  | root x =>
    cases b with
    | version y => simp [intersect] at h
    | root y =>
      by_cases hxy : x = y
      · obtain rfl : root x = c := by simpa [intersect, hxy] using h
        exact .inr ⟨x, rfl, by rw [hxy], rfl⟩
      · simp [intersect, hxy] at h

section

variable (ha : a.Over all)

include ha

lemma Over.intersect (hb : b.Over all) (hsub : a.subject = b.subject)
    (h : a.intersect b = some c) : c.Over all ∧ c.subject = a.subject := by
  rcases inter_cases h with ⟨x, y, z, rfl, rfl, rfl, hxy⟩ | ⟨x, rfl, rfl, rfl⟩
  · have hz := inter_eq_some (ha.allVersions_eq hb hsub) hxy
    refine ⟨?_, by simp [subject, hz.1]⟩
    calc z.allVersions = x.allVersions := hz.2.1
      _ = all x.packageName := ha
      _ = all z.packageName := by rw [hz.1]
  · exact ⟨trivial, rfl⟩

lemma Over.difference (h : a.difference b = some c) : c.Over all ∧ c.subject = a.subject := by
  cases a with
  | version x =>
    cases b with
    | version y =>
      by_cases hemp : x.allowedVersions \ y.allowedVersions = ∅
      · simp [Term.difference, VersionConstraint.difference, hemp] at h
      · obtain rfl : _ = c := by simpa [Term.difference, VersionConstraint.difference, hemp] using h
        exact ⟨ha, rfl⟩
    | root _ => simp [difference] at h
  | root x =>
    cases b with
    | version y => simp [difference] at h
    | root y =>
      by_cases hxy : x = y
      · simp [difference, hxy] at h
      · obtain rfl : root x = c := by simpa [difference, hxy] using h
        exact ⟨trivial, rfl⟩

lemma satisfies_of_inter (hb : b.Over all) (hsubj : a.subject = b.subject) (h : a.intersect b = some c)
    (hsat : a.satisfies t = true ∨ b.satisfies t = true) : c.satisfies t = true := by
  rcases inter_cases h with ⟨x, y, z, rfl, rfl, rfl, hxy⟩ | ⟨x, rfl, rfl, rfl⟩
  swap
  · exact hsat.elim id id
  rcases inter_eq_some (ha.allVersions_eq hb hsubj) hxy with
    ⟨_, _, hsig, hall, _⟩
  cases t with
  | version w =>
    simp only [satisfies, satisfies_iff] at hsat ⊢
    rw [hsig, hall]
    rcases hsat with ⟨hpos, hsub⟩ | ⟨hpos, hsub⟩
    · exact ⟨fun h => by simp [hpos h], inter_subset_left.trans hsub⟩
    · exact ⟨fun h => by simp [hpos h], inter_subset_right.trans hsub⟩
  | root _ => simp [satisfies] at hsat

lemma satisfies_inter (hb : b.Over all) (hsub : a.subject = b.subject)
    (h : a.intersect b = some c) (hta : t.satisfies a = true) (htb : t.satisfies b = true) :
    t.satisfies c = true := by
  rcases inter_cases h with ⟨x, y, z, rfl, rfl, rfl, hxy⟩ | ⟨x, rfl, rfl, rfl⟩
  swap
  · exact hta
  rcases inter_eq_some (ha.allVersions_eq hb hsub) hxy with
    ⟨_, _, hsig, hall, _⟩
  cases t with
  | version w =>
    simp only [satisfies, satisfies_iff] at hta htb ⊢
    refine ⟨fun hpos => ?_, ?_⟩
    · rw [hsig, Bool.or_eq_true] at hpos
      exact hpos.elim hta.1 htb.1
    · rw [hall]
      exact subset_inter hta.2 htb.2
  | root _ => simp [satisfies] at hta

end

lemma difference_eq_none_of_satisfies (h : a.satisfies t = true) : a.difference t = none := by
  cases a with
  | version x =>
    cases t with
    | version y =>
      simp only [satisfies, VersionConstraint.satisfies_iff] at h
      simp [Term.difference, VersionConstraint.difference, sdiff_eq_empty_iff_subset.2 h.2]
    | root _ => simp [Term.difference]
  | root x =>
    cases t with
    | version y => simp [Term.difference]
    | root y =>
      simp only [satisfies, beq_iff_eq] at h
      simp [Term.difference, h]

lemma satisfies_inverse_difference (ha : a.Over all) (hb : b.Over all)
    (hsub : a.subject = b.subject) (h : a.intersect b = some c) (hsat : c.satisfies t = true)
    {d : Term P V} (hd : b.difference t = some d) : a.satisfies d.inverse = true := by
  cases b with
  | version y =>
    cases a with
    | version x =>
      rcases hxy : x.intersect y with _ | z
      · simp [Term.intersect, hxy] at h
      have hall := ha.allVersions_eq hb hsub
      rcases VersionConstraint.inter_eq_some hall hxy with ⟨_, _, _, hallo, _⟩
      obtain rfl : version z = c := by simpa [Term.intersect, hxy] using h
      cases t with
      | version w =>
        simp only [satisfies, VersionConstraint.satisfies_iff] at hsat
        by_cases hemp : y.allowedVersions \ w.allowedVersions = ∅
        · simp [Term.difference, VersionConstraint.difference, hemp] at hd
        obtain rfl : _ = d := by simpa [Term.difference, VersionConstraint.difference, hemp] using hd
        simp [inverse, satisfies, VersionConstraint.satisfies_iff, VersionConstraint.inverse]
        intro v hv
        simp [VersionConstraint.allowedVersions]
        refine ⟨hall ▸ x.allowed_subset hv, fun hy => ?_⟩
        apply hsat.2
        rw [hallo]
        exact mem_inter.2 ⟨hv, hy⟩
      | root _ => simp [Term.difference] at hd
    | root _ => simp [subject] at hsub
  | root y =>
    cases a with
    | version x => simp [subject] at hsub
    | root x =>
      by_cases hxy : x = y
      · obtain rfl : root x = c := by simpa [Term.intersect, hxy] using h
        rw [difference_eq_none_of_satisfies (hxy ▸ hsat)] at hd
        cases hd
      · simp [Term.intersect, hxy] at h

section

variable (ha : a.Over all) (ht : t.Over all) (hsub : a.subject = t.subject) (hsat : a.satisfies t = false)

include ha ht hsub hsat

lemma inter_inverse_isSome (hcom : a.intersect t ≠ none) : ∃ c, a.intersect t.inverse = some c := by
  cases a with
  | version x =>
    cases t with
    | version y =>
      have hcom' : x.intersect y ≠ none := by simpa [intersect] using hcom
      rcases inter_inverse_isSome (ha.allVersions_eq ht hsub) hsat hcom' with ⟨z, hz⟩
      exact ⟨version z, by simp [intersect, inverse, hz]⟩
    | root _ => simp [intersect] at hcom
  | root x =>
    cases t with
    | version y => simp [intersect] at hcom
    | root y =>
      have hne : x ≠ y := by simpa [satisfies] using hsat
      simp [intersect, hne] at hcom

lemma satisfies_inverse (hnon : a.intersect t = none) : a.satisfies t.inverse = true := by
  cases a with
  | version x =>
    cases t with
    | version y =>
      refine satisfies_inverse (ha.allVersions_eq ht hsub) hsat ?_
      simpa [intersect] using hnon
    | root _ => simp [subject] at hsub
  | root x =>
    cases t with
    | version y => simp [subject] at hsub
    | root y =>
      have hne : x ≠ y := by simpa [satisfies] using hsat
      simpa [satisfies, inverse] using Bool.eq_not_of_ne hne

end

def Decided : Term P V → Prop
  | .version constraint => constraint.isPositive = true ∧ ∃ v, constraint.allowedVersions = {v}
  | .root isPositive => isPositive = true

lemma Decided.satisfies_or_inter_eq_none (ha : a.Decided) (hsub : a.subject = t.subject) :
    a.satisfies t = true ∨ a.intersect t = none := by
  cases a with
  | version x =>
    cases t with
    | version y =>
      rcases ha with ⟨hpos, v, hv⟩
      by_cases hmem : v ∈ y.allowedVersions
      · left
        simp [satisfies, satisfies_iff, hpos, hv, hmem]
      right
      have hemp : x.allowedVersions ∩ y.allowedVersions = ∅ := by rw [hv, singleton_inter_of_notMem hmem]
      simp [intersect, (inter_eq_none_iff (.inl hpos)).2 hemp]
    | root _ => simp [subject] at hsub
  | root x =>
    cases t with
    | version y => simp [subject] at hsub
    | root y =>
      by_cases hxy : x = y
      · exact .inl (by simp [hxy])
      · exact .inr (by simp [intersect, hxy])

end Term

end Toolchain.SatResolver
