import Toolchain.SatResolver.Propagation

/-!
# SatResolver.Validity — what `run` returns is a valid set of versions

`Consistent` is the book-keeping of a run.  Since propagation hears of every dependency of a decided
version, a result is valid.
-/

namespace Toolchain.SatResolver

open Lib List Config Assignment PartialSolution

variable {P V : Type} [LinearOrder P] [LinearOrder V]

variable {new old : Resolver P V} {conf cur : Incompatibility P V}

namespace Resolver

variable {cfg : Config P V} {self : Resolver P V}

/-! ## Book-keeping -/

/-- The dependencies of every version listed are among its incompatibilities. -/
def Listed (config : Config P V) (resolver : Resolver P V) : Prop :=
  ∀ packageVersion ∈ resolver.haveListedIncompatibilities,
    ∀ dependency ∈ config.dependenciesFor packageVersion,
      config.dependencyIncompatibility packageVersion dependency ∈
        resolver.incompatibilities (config.dependeeTerm packageVersion).subject

/-- Its incompatibilities are well-formed, and every decision is about a version that is listed. -/
structure Consistent (config : Config P V) (resolver : Resolver P V) : Prop extends
    Upholds config (·.WellFormed config.allVersions) resolver where
  listed : Listed config resolver
  decided : ∀ a ∈ resolver.solution.assignments, a.isDecision = true →
    ∃ packageVersion ∈ resolver.haveListedIncompatibilities, a.term = config.dependeeTerm packageVersion

omit [LinearOrder P] in
lemma grounded_wellFormed (hsel : cfg.NoSelfDependency) : Grounded cfg (·.WellFormed cfg.allVersions) where
  isOver _ hwel := hwel.isOver
  root _ hdep := dependency_wellFormed hsel hdep
  version _ _ _ _ _ hdep := dependency_wellFormed hsel hdep
  require con vers cause _ _ :=
    { isOver := by
        intro t ht
        rw [mem_singleton.1 ht]
        exact cfg.require_over con.packageName vers
      subjects := by simp [Incompatibility.terms] }

lemma Consistent.wf_of_resolve (h : Consistent cfg self) {sca : Subject P} {next : Nat}
    {chan : List (Outcome P)}
    (hcon : self.control = .resolve conf cur sca next chan) : cur.WellFormed cfg.allVersions :=
  (h.resolving _ _ _ _ _ hcon).1

omit [LinearOrder V] in
lemma listed_addAbout (self : Resolver P V) (p : P) (inc : Incompatibility P V) :
    (self.addAbout p inc).haveListedIncompatibilities = self.haveListedIncompatibilities :=
  (extends_add self inc).listed_eq

omit [LinearOrder V] in
lemma Listed.add (h : Listed cfg self) (inc : Incompatibility P V) :
    Listed cfg (self.addIncompatibility inc) := by
  have hext := extends_add self inc
  intro ver hmem dependency hdep
  rw [hext.listed_eq] at hmem
  exact (hext.grows _).subset (h ver hmem dependency hdep)

lemma listed_list (h : Listed cfg self) (ver : PackageVersion P V) :
    Listed cfg (self.listIncompatibilities cfg ver) := by
  have hext := extends_foldl_add self (self.incompatibilitiesFor cfg ver)
  intro other hoth dependency hdep
  rcases mem_cons.1 hoth with rfl | hoth
  · by_cases hlis : other ∈ self.haveListedIncompatibilities
    · exact (hext.grows _).subset (h other hlis dependency hdep)
    -- the first time, all incompatibilities of the version are added
    refine hext.complete _ ?_ _ (.head _)
    rw [incompatibilitiesFor, if_neg hlis]
    exact mem_map_of_mem hdep
  · exact (hext.grows _).subset (h other hoth dependency hdep)

lemma listed_step (h : Listed cfg old) (hste : Step cfg old new) : Listed cfg new := by
  cases hste with
  | @backjump conflict cur sca next chan level hcon hfai hres =>
    have hadd := h.add cur
    unfold Resolver.backjump
    simp only
    split
    · exact hadd
    · exact h
  | useLatest hoff hlat non | useLocked hoff hlat hloc hvers | noVersions cause hoff hnon =>
    intro ver hmem dependency hdep
    exact h.add _ ver hmem dependency hdep
  | decide hoff hlat hloc hval => exact listed_list h _
  | _ => exact h

lemma decided_step (h : Consistent cfg old) (hste : Step cfg old new) :
    ∀ a ∈ new.solution.assignments, a.isDecision = true →
    ∃ ver ∈ new.haveListedIncompatibilities, a.term = cfg.dependeeTerm ver := by
  intro a ha hdec
  cases hste with
  | derive hcon hnex hver =>
    rcases mem_append.1 ha with ha | ha
    · exact h.decided a ha hdec
    · rw [mem_singleton.1 ha] at hdec
      cases hdec
  | @backjump conflict cur sca next chan level hcon hfai hres =>
    have hlis : (old.backjump level conflict cur sca next chan).haveListedIncompatibilities =
        old.haveListedIncompatibilities := by
      unfold Resolver.backjump
      simp only
      split
      · exact (extends_add old cur).listed_eq
      · rfl
    rw [hlis]
    rcases mem_propagate ha with ha | ⟨_, _, _, hcau⟩
    · exact h.decided a ((h.coherent.mem_upTo level a).1 ha).1 hdec
    · simp [isDecision, hcau] at hdec
  | useLatest hoff hlat non | useLocked hoff hlat hloc hvers | noVersions cause hoff hnon =>
    rw [listed_addAbout]
    exact h.decided a ha hdec
  | decide hoff hlat hloc hval =>
    have hold (hmem : a ∈ old.solution.assignments) := h.decided a hmem hdec
    unfold Resolver.decideVersion at ha ⊢
    simp only at ha ⊢
    split at ha
    · rcases hold ha with ⟨ver, hlis, hter⟩
      exact ⟨ver, .tail _ hlis, hter⟩
    · rcases mem_append.1 (decide_assigned old.solution _ ▸ ha) with ha | ha
      · rcases hold ha with ⟨ver, hlis, hter⟩
        exact ⟨ver, .tail _ hlis, hter⟩
      · exact ⟨_, .head _, by rw [mem_singleton.1 ha]; rfl⟩
  | _ => exact h.decided a ha hdec

lemma consistent_root (hsel : cfg.NoSelfDependency) : Consistent cfg (setupRoot cfg) where
  toUpholds := upholds_root (grounded_wellFormed hsel)
  listed := listed_list (fun _ hmem => by cases hmem) .root
  decided := by
    intro a ha _
    rw [solution_root] at ha
    obtain rfl := mem_singleton.1 ha
    exact ⟨.root, .head _, rfl⟩

lemma consistent_step (hsel : cfg.NoSelfDependency)
    (h : Consistent cfg old) (hste : Step cfg old new) : Consistent cfg new where
  toUpholds := upholds_step (grounded_wellFormed hsel) h.toUpholds
    (fun _ _ _ _ _ _ => h.replace_wf (grounded_wellFormed hsel)) hste
  listed := listed_step h.listed hste
  decided := decided_step h hste

lemma consistent_run (hsel : cfg.NoSelfDependency) (sts : Nat) : Consistent cfg (run cfg sts) :=
  run_induction cfg (consistent_root hsel) (fun _ _ => consistent_step hsel) sts

/-! ## The result -/

omit [LinearOrder P] in
/-- A decision satisfies the first term of a dependency of its version. -/
lemma owed_dependency (hsel : cfg.NoSelfDependency) {a : Assignment P V} {ver : PackageVersion P V}
    (hter : a.term = cfg.dependeeTerm ver) {dep : P × Finset V} (hdep : dep ∈ cfg.dependenciesFor ver) :
    Owed a (cfg.dependeeTerm ver) (some (cfg.exclude dep.1 (cfg.pinned dep))) where
  satisfied cur hcur := hter ▸ hcur
  subject_eq := by rw [subject, hter]
  other_ne u hu := by
    have hsub := (dependency_wellFormed hsel hdep).subjects
    cases hu
    rw [subject, hter]
    intro heq
    simp [Incompatibility.terms, dependencyIncompatibility, heq] at hsub

lemma unsat_run (cfg : Config P V) (sts : Nat) (hdon : (run cfg sts).control = .done) :
    (run cfg sts).solution.unsatisfied = some [] := by
  refine run_induction cfg
    (I := fun res => res.control = .done → res.solution.unsatisfied = some []) ?_ ?_ sts hdon
  · intro hdon
    rw [control_root] at hdon
    cases hdon
  · intro old new h hste hdon
    cases hste with
    | finish hcon huns => exact huns
    | halt hcon => exact h hdon
    | _ => cases hdon

lemma mem_foldr_versions (const : List (VersionConstraint P V)) (p : P) (v : V) :
    toLex (p, v) ∈ const.foldr (fun con vers =>
    con.versions.image (fun version => toLex (con.packageName, version)) ∪ vers) (∅ : Finset (P ×ₗ V)) ↔
    ∃ con ∈ const, con.packageName = p ∧ v ∈ con.versions := by
  induction const with
  | nil => simp
  | cons con rest ih =>
    rw [foldr_cons, Finset.mem_union, ih, Finset.mem_image]
    simp only [mem_cons, exists_eq_or_imp]
    refine or_congr_left ?_
    constructor
    · rintro ⟨w, hw, heq⟩
      cases toLex.injective heq
      exact ⟨rfl, hw⟩
    · rintro ⟨rfl, hv⟩
      exact ⟨v, hv, rfl⟩

lemma mem_result_iff (h : Consistent cfg self) (p : P) (v : V) : toLex (p, v) ∈ self.result ↔
    ∃ a ∈ self.solution.assignments, a.isDecision = true ∧ a.term = cfg.require p {v} := by
  unfold result
  rw [Finset.mem_sort, mem_foldr_versions, h.coherent.decisions_eq]
  constructor
  · rintro ⟨constraint, hcon, rfl, hv⟩
    rcases mem_filterMap.1 hcon with ⟨term, hter, hsom⟩
    rcases mem_map.1 hter with ⟨a, ha, rfl⟩
    rcases mem_filter.1 ha with ⟨ha, hdec⟩
    rcases h.decided a ha hdec with ⟨ver, _, hter⟩
    refine ⟨a, ha, hdec, ?_⟩
    cases ver with
    | root => simp [hter, dependeeTerm, constraint?] at hsom
    | version q w =>
      obtain rfl : _ = constraint := by
        simpa [hter, dependeeTerm, require, constraint?] using hsom
      rw [hter, Finset.mem_singleton.1 hv]
      rfl
  · rintro ⟨a, ha, hdec, hter⟩
    refine ⟨{ packageName := p, versions := {v}, isPositive := true
              allVersions := cfg.allVersions p },
      mem_filterMap.2 ⟨a.term, ?_, ?_⟩, rfl, Finset.mem_singleton_self v⟩
    · exact mem_map_of_mem (mem_filter.2 ⟨ha, hdec⟩)
    · rw [hter]
      rfl

omit [LinearOrder P] in
lemma mem_of_decided {cur : Term P V} (hdec : cur.Decided) {p q : P} {v : V}
    {versions : Finset V} (hsel : cur.satisfies (cfg.require p {v}) = true)
    (hsat : cur.satisfies (cfg.require q versions) = true) : v ∈ versions := by
  cases cur with
  | version c =>
    rcases hdec with ⟨_, u, hu⟩
    rw [satisfies_require_iff, hu, Finset.singleton_subset_iff, Finset.mem_inter] at hsel hsat
    rw [← Finset.mem_singleton.1 hsel.2.2]
    exact hsat.2.2
  | root b => simp [require, Term.satisfies] at hsat

lemma eq_of_mem_result (h : Consistent cfg self) {p : P} {v w : V}
    (hv : toLex (p, v) ∈ self.result) (hw : toLex (p, w) ∈ self.result) : v = w := by
  rcases (mem_result_iff h p v).1 hv with ⟨a, ha, hade, hate⟩
  rcases (mem_result_iff h p w).1 hw with ⟨b, hb, hbde, hbte⟩
  rcases accum_decided h.coherent.grown ha hade with ⟨cur, hcur, hdec, hsat⟩
  rcases accum_decided h.coherent.grown hb hbde with ⟨cur', hcur', _, hsat'⟩
  have hsub : a.subject = b.subject := by
    rw [subject, subject, hate, hbte]
    rfl
  rw [hsub, hcur'] at hcur
  cases hcur
  rw [hate] at hsat
  rw [hbte] at hsat'
  exact Finset.mem_singleton.1 (mem_of_decided hdec hsat hsat')

lemma exists_mem_result (h : Consistent cfg self) (huns : self.solution.unsatisfied = some [])
    {q : P} {vers : Finset V}
    (hsat : self.solution.satisfies (cfg.require q vers) = true) :
    ∃ w ∈ vers, toLex (q, w) ∈ self.result := by
  rcases satisfies_iff.1 hsat with ⟨cur, hter, hcur⟩
  have hacc := hter
  rw [h.coherent.terms_eq] at hacc
  rcases accum_over h.coherent.grown hacc with ⟨_, hsub⟩
  have hpos : cur.isPositive = true := by
    cases cur with
    | version c => exact ((cfg.satisfies_require_iff c q vers).1 hcur).1
    | root b => simp [require, Term.satisfies] at hcur
  have hdec : self.solution.isDecided (cfg.require q vers).subject = true := by
    cases hdec : self.solution.isDecided (cfg.require q vers).subject with
    | true => rfl
    | false =>
      -- otherwise the package would still be unsatisfied
      have hmem := (mem_unsat_iff h.coherent huns).2 ⟨by rw [hsub, hter], hpos, by rw [hsub, hdec]⟩
      cases hmem
  rcases (h.coherent.isDecided_iff _).1 hdec with ⟨b, hb, hdeci, hbsu⟩
  rcases h.decided b hb hdeci with ⟨ver, _, hterm⟩
  cases ver with
  | root => simp [subject, hterm, dependeeTerm, require, Term.subject] at hbsu
  | version p w =>
    obtain rfl : p = q := by
      simpa [subject, hterm, dependeeTerm, require, Term.subject] using hbsu
    refine ⟨w, ?_, (mem_result_iff h p w).2 ⟨b, hb, hdeci, hterm⟩⟩
    rcases accum_decided h.coherent.grown hb hdeci with ⟨_, hcur', hd, hsel⟩
    rw [hbsu, hacc] at hcur'
    cases hcur'
    rw [hterm] at hsel
    exact mem_of_decided hd hsel hcur

/-- One version for a package, and every dependency of the root and of a selected version is met by one
that it, or its override, allows. -/
structure Valid (config : Config P V) (versions : List (P ×ₗ V)) : Prop where
  once : (versions.map fun version => (ofLex version).1).Nodup
  root : ∀ dependency ∈ config.dependenciesFor .root, ∃ w ∈ config.pinned dependency,
    toLex (dependency.1, w) ∈ versions
  met : ∀ p v, toLex (p, v) ∈ versions → ∀ dependency ∈ config.dependenciesFor (.version p v),
      ∃ w ∈ config.pinned dependency, toLex (dependency.1, w) ∈ versions

/-- If `run` returns, its result is a valid selection of versions. -/
theorem run_result_valid (config : Config P V) (hself : config.NoSelfDependency) (steps : Nat)
    (hdone : (run config steps).control = .done) : Valid config (run config steps).result := by
  have h := consistent_run hself steps
  have huns := unsat_run config steps hdone
  have hmet : ∀ a ∈ (run config steps).solution.assignments, a.isDecision = true →
      ∀ packageVersion ∈ (run config steps).haveListedIncompatibilities,
        a.term = config.dependeeTerm packageVersion →
      ∀ dependency ∈ config.dependenciesFor packageVersion,
      ∃ w ∈ config.pinned dependency, toLex (dependency.1, w) ∈ (run config steps).result := by
    intro a ha hdec packageVersion hlis hter dependency hdep
    have hstored := h.listed packageVersion hlis dependency hdep
    rw [← hter] at hstored
    -- propagation has heard of the dependency
    rcases (heard_run config steps).of_done hdone ha hdec (owed_dependency hself hter hdep) hstored with
      ⟨u, hu, hsat⟩
    cases hu
    exact exists_mem_result h huns (hsat.satisfies h.coherent)
  refine { once := ?_, root := ?_, met := ?_ }
  · refine List.Nodup.map_on ?_ (Finset.sort_nodup _ _)
    intro x hx y hy heq
    have hver := eq_of_mem_result h (p := (ofLex x).1) (v := (ofLex x).2) (w := (ofLex y).2) hx (heq ▸ hy)
    exact ofLex.injective (Prod.ext heq hver)
  · -- the first assignment is the decision of the root
    rcases hlist : (run config steps).solution.assignments with _ | ⟨first, rest⟩
    · exact absurd hlist h.coherent.nonempty
    have hgro := h.coherent.grown
    rw [hlist] at hgro
    rcases (Grown.rel (l := []) hgro).first rfl with ⟨hroo, hdec⟩
    have hfir : first ∈ (run config steps).solution.assignments := by simp [hlist]
    rcases h.decided first hfir hdec with ⟨packageVersion, hlis, hter⟩
    cases packageVersion with
    | root => exact hmet first hfir hdec .root hlis hter
    | version p v =>
      simp [subject, hter, dependeeTerm, require, Term.subject] at hroo
  · intro p v hv
    rcases (mem_result_iff h p v).1 hv with ⟨a, ha, hdec, hter⟩
    rcases h.decided a ha hdec with ⟨packageVersion, hlis, hterm'⟩
    obtain rfl : packageVersion = .version p v := by
      cases packageVersion with
      | root => simp [hter, dependeeTerm, require] at hterm'
      | version q w =>
        rw [hter] at hterm'
        simp only [dependeeTerm, require, Term.version.injEq,
          VersionConstraint.mk.injEq, Finset.singleton_inj] at hterm'
        rw [hterm'.1, hterm'.2.1]
    exact hmet a ha hdec _ hlis hterm'

/-- Package 0 is tried at its version 1 first, which depends on a version of package 1 that the
root excludes. -/
def backtracking : Config (Fin 2) (Fin 2) where
  dependencies := [(0, {0, 1}), (1, {0})]
  graph :=
    { allVersions := fun _ => {0, 1}
      fetchDependenciesFor := fun p v => if p = 0 ∧ v = 1 then some [(1, {1})] else some [] }
  useLatest := ∅
  locked := fun _ => none
  downgrades := ∅
  overrides := fun _ => none

theorem run_result_valid_backtracking :
    (run backtracking 40).control = .done ∧ Valid backtracking (run backtracking 40).result :=
  ⟨by decide +kernel, run_result_valid backtracking (by unfold Config.NoSelfDependency; decide) 40
    (by decide +kernel)⟩

end Resolver

end Toolchain.SatResolver
