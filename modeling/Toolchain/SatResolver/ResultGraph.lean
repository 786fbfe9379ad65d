import Mathlib.Data.ENat.Basic
import Mathlib.Data.Finset.Card
import Mathlib.Data.List.Sort
import Mathlib.Data.List.TakeWhile

/-!
# SatResolver.ResultGraph — the printed tree of a result

`ResultGraph` prints the dependencies of the selected versions as a tree and lists those of a package
once, at its minimum depth.  A first pass records the depths: only packages on the current way may have
dependencies whose depth is not settled yet (`Settled`).

Models `satresolver/simple_result_graph.py`; more fuel than packages is always enough.
-/

namespace Toolchain.SatResolver

open List Function Option

structure ResultGraph (V : Type) where
  dependencyGraph : V → List V
  directDependencies : List V
  nodes : Finset V
  direct_mem : ∀ package ∈ directDependencies, package ∈ nodes
  dependency_mem : ∀ package ∈ nodes, ∀ dep ∈ dependencyGraph package, dep ∈ nodes

structure TreeLine (V : Type) where
  depth : Nat
  package : V
  deriving DecidableEq, Repr

def TreeLine.text {V : Type} [ToString V] (self : TreeLine V) : String :=
  String.join (replicate (self.depth - 1) "    ") ++ (if self.depth > 1 then "|" else "") ++
    " - " ++ toString self.package

namespace ResultGraph

variable {V : Type}

section Model

variable [LinearOrder V] (self : ResultGraph V)

def findMinimumDepths : Nat → V → Nat → (V → Option Nat) → Option (V → Option Nat)
  | 0, _, _, _ => none
  | fuel + 1, packageVersion, depth, depths =>
    if (depths packageVersion).any fun found => decide (found ≤ depth) then
      some depths
    else
      (self.dependencyGraph packageVersion).foldlM
        (fun depths dep => findMinimumDepths fuel dep (depth + 1) depths)
        (update depths packageVersion (some depth))

def alreadySeen (depths : V → Option Nat) (seen : List V) (packageVersion : V) (depth : Nat) :
    Bool :=
  ((depths packageVersion).any fun found => decide (found < depth)) || seen.contains packageVersion

def makeLines (depths : V → Option Nat) :
    Nat → V → Nat → List V → Option (List (TreeLine V) × List V)
  | 0, _, _, _ => none
  | fuel + 1, packageVersion, depth, seen =>
    let line := { depth := depth, package := packageVersion }
    if alreadySeen depths seen packageVersion depth then
      some ([line], seen)
    else
      (self.dependencyGraph packageVersion).foldlM (fun state dep =>
          (makeLines depths fuel dep (depth + 1) state.2).map fun below => (state.1 ++ below.1, below.2))
        ([line], packageVersion :: seen)

def minimumDepths (fuel : Nat) : Option (V → Option Nat) :=
  self.directDependencies.foldlM
    (fun depths package => self.findMinimumDepths fuel package 1 depths) fun _ => none

def run (fuel : Nat) : Option (List (TreeLine V)) :=
  (self.minimumDepths fuel).bind fun depths =>
    ((self.directDependencies.insertionSort (· ≤ ·)).foldlM (fun state package =>
        (self.makeLines depths fuel package 1 state.2).map fun below => (state.1 ++ below.1, below.2))
      ([], [])).map Prod.fst

end Model

/-! ## Depths -/

section

variable (graph : ResultGraph V)

inductive Path : V → Nat → Prop
  | direct {package : V} (h : package ∈ graph.directDependencies) : Path package 1
  | step {package dep : V} {depth : Nat} (h : Path package depth)
      (hdep : dep ∈ graph.dependencyGraph package) : Path dep (depth + 1)

def IsMinimumDepth (package : V) (depth : Nat) : Prop :=
  graph.Path package depth ∧ ∀ other, graph.Path package other → depth ≤ other

end

variable {pkg : V} {depth dep depth' : Nat} {bef after : V → Option Nat}

section Depths

variable {graph : ResultGraph V}

lemma exists_isMinimumDepth (h : graph.Path pkg depth) : ∃ least, graph.IsMinimumDepth pkg least := by
  classical
  have hexi : ∃ depth, graph.Path pkg depth := ⟨depth, h⟩
  exact ⟨Nat.find hexi, Nat.find_spec hexi, fun other hoth => Nat.find_min' hexi hoth⟩

/-- The recorded depth; what has none is infinitely deep. -/
def level (depths : V → Option Nat) (package : V) : ℕ∞ := depths package

lemma level_le_iff {depths : V → Option Nat} :
    ((depths pkg).any fun found => decide (found ≤ depth)) = true ↔ level depths pkg ≤ depth := by
  unfold level
  cases depths pkg with
  | none => exact iff_of_false Bool.false_ne_true (not_le.2 (ENat.natCast_lt_top depth))
  | some found => exact decide_eq_true_iff.trans Nat.cast_le.symm

/-- Recorded depths are those of paths, and the dependencies of a package have been reached from
it, unless it is still being visited. -/
structure Settled (graph : ResultGraph V) (visiting : Finset V) (depths : V → Option Nat) : Prop where
  path : ∀ package depth, depths package = some depth → graph.Path package depth
  reached : ∀ package ∉ visiting, ∀ dep ∈ graph.dependencyGraph package,
    level depths dep ≤ level depths package + 1

structure Lowered (depth : Nat) (before after : V → Option Nat) : Prop where
  le : level after ≤ level before
  kept : ∀ package, level before package ≤ depth → after package = before package

lemma Lowered.trans {first second third : V → Option Nat} (h : Lowered depth first second)
    (h' : Lowered depth' second third) (hle : depth ≤ depth') : Lowered depth first third where
  le := h'.le.trans h.le
  kept package hold :=
    (h'.kept package ((h.le package).trans (hold.trans (Nat.cast_le.2 hle)))).trans (h.kept package hold)

end Depths

variable {dept : V → Option Nat} {package : V}

section Depths

variable [LinearOrder V] {graph gr : ResultGraph V}

structure Visited (graph : ResultGraph V) (visiting : Finset V) (depth : Nat) (packages : List V)
    (before after : V → Option Nat) : Prop where
  settled : graph.Settled visiting after
  lowered : Lowered depth before after
  found : ∀ package ∈ packages, level after package ≤ depth

section Fold

variable {visiting : Finset V} {depth fuel : Nat}

lemma foldlM_visited (hvisit : ∀ package before, package ∈ graph.nodes → graph.Path package depth →
    graph.Settled visiting before → (∀ other ∈ visiting, level before other < depth) →
    ∃ after, graph.findMinimumDepths fuel package depth before = some after ∧
    graph.Visited visiting depth [package] before after)
    (packages : List V) (before : V → Option Nat)
    (hpackages : ∀ package ∈ packages, package ∈ graph.nodes ∧ graph.Path package depth)
    (hset : graph.Settled visiting before) (hway : ∀ other ∈ visiting, level before other < depth) :
    ∃ after, packages.foldlM (fun dep package => graph.findMinimumDepths fuel package depth dep)
      before = some after ∧
    graph.Visited visiting depth packages before after := by
  induction packages generalizing before with
  | nil => exact ⟨before, rfl, hset, ⟨le_rfl, fun _ _ => rfl⟩, by simp⟩
  | cons package packages ih =>
    obtain ⟨⟨hmem, hpat⟩, hpackages⟩ := forall_mem_cons.1 hpackages
    obtain ⟨mid, hmid, hvis⟩ := hvisit package before hmem hpat hset hway
    obtain ⟨after, haft, hset', hlow, hfou⟩ := ih mid hpackages hvis.settled
      fun other hoth => (hvis.lowered.le other).trans_lt (hway other hoth)
    refine ⟨after, by simp [hmid, haft], hset', hvis.lowered.trans hlow le_rfl,
      forall_mem_cons.2 ⟨?_, hfou⟩⟩
    exact (hlow.le package).trans (hvis.found package (.head _))

end Fold

lemma level_update_of_ne {other : V} (hother : other ≠ package) :
    level (update dept package (some depth)) other = level dept other :=
  update_of_ne hother ..

lemma level_update_self : level (update dept package (some depth)) package = depth :=
  update_self ..

lemma lowered_update (hnew : depth < level dept package) :
    Lowered depth dept (update dept package (some depth)) where
  le other := by
    by_cases hother : other = package
    · subst hother
      exact level_update_self.trans_le hnew.le
    · exact (level_update_of_ne hother).le
  kept other hle := by
    by_cases hother : other = package
    · subst hother
      exact absurd hnew (not_lt.2 hle)
    · exact update_of_ne hother ..

lemma settled_update {visiting : Finset V} (hset : gr.Settled visiting dept) (hpat : gr.Path package depth)
    (hnew : depth < level dept package) :
    gr.Settled (insert package visiting) (update dept package (some depth)) where
  path := by
    intro other found hfou
    by_cases hother : other = package
    · subst hother
      obtain rfl : depth = found := by simpa using hfou
      exact hpat
    · rw [update_of_ne hother] at hfou
      exact hset.path other found hfou
  reached := by
    intro other hother dep hdep
    rw [Finset.mem_insert, not_or] at hother
    rw [level_update_of_ne hother.1]
    exact ((lowered_update hnew).le dep).trans (hset.reached other hother.2 dep hdep)

open Finset

lemma card_unvisited {nodes visited : Finset V} {fuel : Nat} (hmem : pkg ∈ nodes) (hnot : pkg ∉ visited)
    (hfue : (nodes \ visited).card < fuel + 1) : (nodes \ insert pkg visited).card < fuel := by
  rw [sdiff_insert]
  exact (card_erase_lt_of_mem (mem_sdiff.2 ⟨hmem, hnot⟩)).trans_le (Nat.lt_succ_iff.1 hfue)

lemma findMinimumDepths_visited (fuel : Nat) :
    ∀ (visiting : Finset V) (pkg : V) (depth : Nat) (bef : V → Option Nat),
    (gr.nodes \ visiting).card < fuel → pkg ∈ gr.nodes → gr.Path pkg depth →
    gr.Settled visiting bef → (∀ other ∈ visiting, level bef other < depth) →
    ∃ after, gr.findMinimumDepths fuel pkg depth bef = some after ∧
    gr.Visited visiting depth [pkg] bef after := by
  induction fuel with
  | zero =>
    intro visiting pkg depth bef hfue
    exact absurd hfue (Nat.not_lt_zero _)
  | succ fuel ih =>
    intro visiting pkg depth bef hfue hmem hpat hset hway
    rw [findMinimumDepths]
    split
    · -- reached before at such a depth
      rename_i hfou
      exact ⟨bef, rfl, hset, ⟨le_rfl, fun _ _ => rfl⟩, by simpa using level_le_iff.1 hfou⟩
    rename_i hfou
    have hnew : depth < level bef pkg := not_le.1 (mt level_le_iff.2 hfou)
    have hnot : pkg ∉ visiting := fun hpac => lt_asymm hnew (hway pkg hpac)
    have hlow := lowered_update hnew
    have hway' : ∀ other ∈ insert pkg visiting, level (update bef pkg (some depth)) other <
      (depth + 1 : Nat) := by
      intro other hother
      refine lt_of_le_of_lt ?_ (Nat.cast_lt.2 (Nat.lt_succ_self depth))
      rcases mem_insert.1 hother with rfl | hother
      · exact level_update_self.le
      · exact (hlow.le other).trans (hway other hother).le
    obtain ⟨after, haft, hset', hlow', hrea⟩ := foldlM_visited
      (fun dep bef => ih (insert pkg visiting) dep (depth + 1) bef (card_unvisited hmem hnot hfue))
      (gr.dependencyGraph pkg) _
      (fun dep hdep => ⟨gr.dependency_mem pkg hmem dep hdep, hpat.step hdep⟩)
      (settled_update hset hpat hnew) hway'
    have hkep : level after pkg = depth :=
      (hlow'.kept pkg (hway' pkg (mem_insert_self ..)).le).trans level_update_self
    refine ⟨after, haft, ⟨hset'.path, ?_⟩, hlow.trans hlow' (Nat.le_succ _), by simp [hkep]⟩
    -- the package itself is settled now
    intro other hother dep hdep
    by_cases hpac : other = pkg
    · subst hpac
      rw [hkep]
      exact hrea dep hdep
    · exact hset'.reached other (by simp [hpac, hother]) dep hdep

lemma minimumDepths_spec {fuel : Nat} (hfue : gr.nodes.card < fuel) :
    ∃ dep, gr.minimumDepths fuel = some dep ∧
    ∀ package depth, dep package = some depth ↔ gr.IsMinimumDepth package depth := by
  have hemp : gr.Settled ∅ fun _ => none := { path := by simp, reached := fun _ _ _ _ => le_rfl }
  obtain ⟨dep, hde, hset, _, hdir⟩ := foldlM_visited
    (fun package bef => findMinimumDepths_visited fuel ∅ package 1 bef (by simpa using hfue))
    gr.directDependencies (fun _ => none)
    (fun package hpac => ⟨gr.direct_mem package hpac, .direct hpac⟩)
    hemp (by simp)
  -- along a path the depths grow by one at most
  have hle : ∀ package depth, gr.Path package depth → level dep package ≤ depth := by
    intro package depth hpat
    induction hpat with
    | direct h => exact hdir _ h
    | step _ hdep ih => exact (hset.reached _ (by simp) _ hdep).trans (add_le_add_left ih 1)
  refine ⟨dep, hde, fun package depth => ⟨?_, ?_⟩⟩
  · intro hdept
    refine ⟨hset.path package depth hdept, fun other hother => ?_⟩
    have hfou := hle package other hother
    rw [level, hdept] at hfou
    exact Nat.cast_le.1 hfou
  · rintro ⟨hpat, hlea⟩
    obtain ⟨found, hfou, hle⟩ := ENat.le_natCast_iff.1 (hle package depth hpat)
    have hge := hlea found (hset.path package found hfou)
    rw [show dep package = some found from hfou, le_antisymm hle hge]

end Depths

/-! ## Lines -/

section

/-- The packages listed directly below a line: those one level deeper, up to the next line that is
not deeper. -/
def children (line : TreeLine V) (lines : List (TreeLine V)) : List V :=
  ((lines.takeWhile fun next => line.depth < next.depth).filter fun next =>
    next.depth = line.depth + 1).map TreeLine.package

def occurrences [DecidableEq V] (package : V) : List (TreeLine V) → List (Nat × List V)
  | [] => []
  | line :: lines =>
    if line.package = package then
      (line.depth, children line lines) :: occurrences package lines
    else
      occurrences package lines

def ListedOnce [DecidableEq V] (graph : ResultGraph V) (lines : List (TreeLine V)) (package : V)
    (depth : Nat) : Prop :=
  ∃ before after, occurrences package lines = before ++ (depth, graph.dependencyGraph package) :: after ∧
      ∀ occurrence ∈ before ++ after, occurrence.2 = []

def heads (depth : Nat) (lines : List (TreeLine V)) : List V :=
  (lines.filter fun line => line.depth = depth).map TreeLine.package

lemma heads_append (dep : Nat) (lines rest : List (TreeLine V)) :
    heads dep (lines ++ rest) = heads dep lines ++ heads dep rest := by
  simp [heads]

variable {lines rest : List (TreeLine V)}

lemma children_append {line : TreeLine V}
    (hres : ∀ next, rest.head? = some next → next.depth ≤ line.depth) :
    children line (lines ++ rest) = children line lines := by
  have htak : (lines ++ rest).takeWhile (fun next => decide (line.depth < next.depth)) =
      lines.takeWhile fun next => decide (line.depth < next.depth) := by
    induction lines with
    | nil =>
      cases rest with
      | nil => rfl
      | cons next rest =>
        have hle := hres next rfl
        simp [hle]
    | cons next lines ih => simp only [cons_append, takeWhile_cons, ih]
  rw [children, htak, children]

variable [DecidableEq V]

lemma occurrences_append (hlin : ∀ line ∈ lines, dep ≤ line.depth)
    (hres : ∀ next, rest.head? = some next → next.depth ≤ dep) :
    occurrences pkg (lines ++ rest) = occurrences pkg lines ++ occurrences pkg rest := by
  induction lines with
  | nil => rfl
  | cons line lines ih =>
    have hline := hlin line (.head _)
    have hchi : children line (lines ++ rest) = children line lines :=
      children_append fun next hnex => (hres next hnex).trans hline
    have htai := ih fun line hline => hlin line (.tail _ hline)
    simp only [cons_append, occurrences, hchi, htai]
    split <;> rfl

structure Printed (graph : ResultGraph V) (depths : V → Option Nat) (depth : Nat) (before : List V)
    (lines : List (TreeLine V)) (after : List V) : Prop where
  deep : ∀ line ∈ lines, depth ≤ line.depth
  head : ∀ line, lines.head? = some line → line.depth ≤ depth
  seen : ∀ package ∈ before, package ∈ after
  once : ∀ package ∈ after, package ∉ before →
    ∃ found, depths package = some found ∧ graph.ListedOnce lines package found
  never : ∀ package, package ∈ before ∨ package ∉ after → ∀ occurrence ∈ occurrences package lines,
    occurrence.2 = []
  closed : ∀ package ∈ after, package ∉ before → ∀ found, depths package = some found →
    ∀ dep ∈ graph.dependencyGraph package, depths dep = some (found + 1) → dep ∈ after

variable {gr : ResultGraph V} {depths : V → Option Nat} {depth : Nat}

lemma Printed.nil (seen : List V) : gr.Printed depths depth seen [] seen where
  deep := by simp
  head := by simp
  seen := fun _ h => h
  once := fun _ h hnot => absurd h hnot
  never := by simp [occurrences]
  closed := fun _ h hnot => absurd h hnot

lemma Printed.append {first second third : List V} (h : gr.Printed depths depth first lines second)
    (h' : gr.Printed depths depth second rest third) :
    gr.Printed depths depth first (lines ++ rest) third := by
  have hoccu (pkg : V) : occurrences pkg (lines ++ rest) = occurrences pkg lines ++ occurrences pkg rest :=
    occurrences_append h.deep h'.head
  refine
    { deep := ?_, head := ?_, seen := fun pkg hpac => h'.seen pkg (h.seen pkg hpac), once := ?_,
      never := ?_
      closed := ?_ }
  · intro line hlin
    rcases mem_append.1 hlin with hlin | hlin
    · exact h.deep line hlin
    · exact h'.deep line hlin
  · intro line hlin
    cases lines with
    | nil => exact h'.head line hlin
    | cons next lines => exact h.head line hlin
  · intro pkg hthi hfir
    simp only [ListedOnce, hoccu]
    by_cases hsec : pkg ∈ second
    · -- listed in the first lines, and not again
      obtain ⟨found, hfou, bef, after, heq, hnon⟩ := h.once pkg hsec hfir
      refine ⟨found, hfou, bef, after ++ occurrences pkg rest, by simp [heq], ?_⟩
      intro occ hocc
      rw [← append_assoc] at hocc
      rcases mem_append.1 hocc with hmem | hmem
      · exact hnon occ hmem
      · exact h'.never pkg (.inl hsec) occ hmem
    · obtain ⟨found, hfou, bef, after, heq, hnon⟩ := h'.once pkg hthi hsec
      refine ⟨found, hfou, occurrences pkg lines ++ bef, after, by simp [heq], ?_⟩
      intro occ hocc
      rw [append_assoc] at hocc
      rcases mem_append.1 hocc with hmem | hmem
      · exact h.never pkg (.inr hsec) occ hmem
      · exact hnon occ hmem
  · intro pkg hpac occ hocc
    rw [hoccu] at hocc
    rcases mem_append.1 hocc with hmem | hmem
    · refine h.never pkg (hpac.imp_right fun hnot hsec => ?_) occ hmem
      exact hnot (h'.seen pkg hsec)
    · exact h'.never pkg (hpac.imp_left (h.seen pkg)) occ hmem
  · intro pkg hthi hfir found hfou dep hdep hnex
    by_cases hsec : pkg ∈ second
    · exact h'.seen dep (h.closed pkg hsec hfir found hfou dep hdep hnex)
    · exact h'.closed pkg hthi hsec found hfou dep hdep hnex

lemma Printed.leaf (pkg : V) (seen : List V) :
    gr.Printed depths depth seen [{ depth := depth, package := pkg }] seen where
  deep := by simp
  head := by simp
  seen := fun _ h => h
  once := fun _ h hnot => absurd h hnot
  never := by
    intro other _ occ hocc
    simp only [occurrences] at hocc
    split at hocc
    · simp_all [children]
    · simp at hocc
  closed := fun _ h hnot => absurd h hnot

lemma Printed.node {seen after : List V} {lines : List (TreeLine V)}
    (hdept : depths package = some depth) (hsee : package ∉ seen)
    (h : gr.Printed depths (depth + 1) (package :: seen) lines after)
    (hhea : heads (depth + 1) lines = gr.dependencyGraph package)
    (hdeps : ∀ dep ∈ gr.dependencyGraph package, depths dep = some (depth + 1) → dep ∈ after) :
    gr.Printed depths depth seen ({ depth := depth, package := package } :: lines) after := by
  have hchi : children { depth := depth, package := package } lines =
      gr.dependencyGraph package := by
    have htak : lines.takeWhile (fun next => decide (depth < next.depth)) = lines := by
      rw [takeWhile_eq_self_iff]
      intro line hlin
      exact decide_eq_true (h.deep line hlin)
    rw [children, htak, ← hhea, heads]
  have hown : occurrences package ({ depth := depth, package := package } :: lines) =
      (depth, gr.dependencyGraph package) :: occurrences package lines := by
    rw [occurrences, if_pos rfl, hchi]
  have hoth (oth : V) (hne : oth ≠ package) :
    occurrences oth ({ depth := depth, package := package } :: lines) =
        occurrences oth lines := by
    rw [occurrences, if_neg hne.symm]
  refine
    { deep := ?_, head := by simp, seen := fun oth hoth => h.seen oth (.tail _ hoth), once := ?_,
      never := ?_
      closed := ?_ }
  · intro line hlin
    rcases mem_cons.1 hlin with rfl | hlin
    · exact le_rfl
    · exact (Nat.le_succ _).trans (h.deep line hlin)
  · intro oth haft hnot
    by_cases hpac : oth = package
    · subst hpac
      refine ⟨depth, hdept, [], occurrences oth lines, by rw [hown]; rfl, ?_⟩
      exact h.never oth (.inl (.head _))
    · obtain ⟨found, hfou, hlis⟩ := h.once oth haft (by simp [hpac, hnot])
      refine ⟨found, hfou, ?_⟩
      rwa [ListedOnce, hoth oth hpac]
  · intro oth hor
    have hpac : oth ≠ package := by
      rintro rfl
      rcases hor with hmem | hnot
      · exact hsee hmem
      · exact hnot (h.seen oth (.head _))
    rw [hoth oth hpac]
    exact h.never oth (hor.imp_left (mem_cons_of_mem _))
  · intro oth haft hnot found hfou dep hdep hnex
    by_cases hpac : oth = package
    · subst hpac
      obtain rfl := some_inj.1 (hdept.symm.trans hfou)
      exact hdeps dep hdep hnex
    · exact h.closed oth haft (by simp [hpac, hnot]) found hfou dep hdep hnex

end

/-! ## Printing -/

section

variable [LinearOrder V] {graph gr : ResultGraph V} {depths : V → Option Nat}

structure PrintedFrom (graph : ResultGraph V) (depths : V → Option Nat) (depth : Nat)
    (packages before : List V) (lines : List (TreeLine V)) (after : List V) : Prop where
  printed : graph.Printed depths depth before lines after
  heads_eq : heads depth lines = packages
  shown : ∀ package ∈ packages, depths package = some depth → package ∈ after

lemma foldlM_printed {fuel : Nat} (hprin : ∀ package bef, (gr.nodes \ bef.toFinset).card < fuel →
    package ∈ gr.nodes → gr.Path package dep →
    ∃ lines after, gr.makeLines depths fuel package dep bef = some (lines, after) ∧
    gr.PrintedFrom depths dep [package] bef lines after)
    (pkgs : List V) (start : List (TreeLine V)) (bef : List V)
    (hfue : (gr.nodes \ bef.toFinset).card < fuel)
    (hpac : ∀ package ∈ pkgs, package ∈ gr.nodes ∧ gr.Path package dep) :
    ∃ lines after, pkgs.foldlM (fun state package =>
    (gr.makeLines depths fuel package dep state.2).map fun below => (state.1 ++ below.1, below.2))
    (start, bef) = some (start ++ lines, after) ∧
    gr.PrintedFrom depths dep pkgs bef lines after := by
  induction pkgs generalizing start bef with
  | nil => exact ⟨[], bef, by simp, .nil _, rfl, by simp⟩
  | cons package pkgs ih =>
    obtain ⟨hmem, hpat⟩ := hpac package (.head _)
    obtain ⟨first, mid, hfir, hpri⟩ := hprin package bef hfue hmem hpat
    have hfuel' : (gr.nodes \ mid.toFinset).card < fuel := by
      apply lt_of_le_of_lt (Finset.card_le_card _) hfue
      apply Finset.sdiff_subset_sdiff le_rfl
      intro seen hsee
      exact mem_toFinset.2 (hpri.printed.seen seen (mem_toFinset.1 hsee))
    obtain ⟨rest, after, hres, hpri'⟩ := ih (start ++ first) mid hfuel' fun p hp => hpac p (.tail _ hp)
    refine ⟨first ++ rest, after, ?_, hpri.printed.append hpri'.printed, ?_, ?_⟩
    · simp [hfir, hres]
    · rw [heads_append, hpri.heads_eq, hpri'.heads_eq]
      rfl
    · intro p hp hdep
      rcases mem_cons.1 hp with rfl | hp
      · exact hpri'.printed.seen p (hpri.shown p (by simp) hdep)
      · exact hpri'.shown p hp hdep

lemma makeLines_printed
    (hde : ∀ package depth, depths package = some depth ↔ gr.IsMinimumDepth package depth)
    (fuel : Nat) :
    ∀ (depth : Nat) (package : V) (before : List V),
    (gr.nodes \ before.toFinset).card < fuel → package ∈ gr.nodes → gr.Path package depth →
    ∃ lines after, gr.makeLines depths fuel package depth before = some (lines, after) ∧
    gr.PrintedFrom depths depth [package] before lines after := by
  induction fuel with
  | zero =>
    intro depth package before hfue
    exact absurd hfue (Nat.not_lt_zero _)
  | succ fuel ih =>
    intro depth package before hfue hmem hpat
    have hhea : heads depth [({ depth := depth, package := package } : TreeLine V)] = [package] := by
      simp [heads]
    rw [makeLines]
    by_cases hsee : alreadySeen depths before package depth = true
    · refine ⟨_, before, if_pos hsee, .leaf package before, hhea, ?_⟩
      intro p hp hdept
      obtain rfl : p = package := mem_singleton.1 hp
      simpa [alreadySeen, hdept] using hsee
    rw [if_neg hsee]
    have hnot : package ∉ before := by
      intro h
      simp [alreadySeen, h] at hsee
    -- it has not been recorded at a smaller depth, and cannot have a greater one
    have hdept : depths package = some depth := by
      obtain ⟨least, hlea⟩ := exists_isMinimumDepth hpat
      have hrec := (hde package least).2 hlea
      have hge : depth ≤ least := by simpa [alreadySeen, hrec, hnot] using hsee
      rw [hrec, le_antisymm (hlea.2 depth hpat) hge]
    have hfuel' : (gr.nodes \ (package :: before).toFinset).card < fuel := by
      rw [toFinset_cons]
      exact card_unvisited hmem (by simpa using hnot) hfue
    obtain ⟨lines, after, hlin, hpri⟩ := foldlM_printed (ih (depth + 1))
      (gr.dependencyGraph package) [{ depth := depth, package := package }]
      (package :: before) hfuel'
      fun dep hdep => ⟨gr.dependency_mem package hmem dep hdep, hpat.step hdep⟩
    have hnod := Printed.node hdept hnot hpri.printed hpri.heads_eq hpri.shown
    refine ⟨_, after, hlin, hnod, ?_, ?_⟩
    · rw [heads_append, hhea]
      -- the lines below are deeper
      have hnon : heads depth lines = [] := by
        rw [heads, map_eq_nil_iff, filter_eq_nil_iff]
        intro line hline
        have hdee := hpri.printed.deep line hline
        simp only [decide_eq_true_eq]
        omega
      rw [hnon, append_nil]
    · intro p hp _
      obtain rfl : p = package := mem_singleton.1 hp
      exact hpri.printed.seen p (.head _)

/-- With more fuel than packages the recorded depths are the minimum depths, and the dependencies of
every reachable package are listed once, at that depth. -/
theorem run_lists_dependencies_once {fuel : Nat} (hfuel : graph.nodes.card < fuel) :
    ∃ depths lines, graph.minimumDepths fuel = some depths ∧ graph.run fuel = some lines ∧
    (∀ package depth, depths package = some depth ↔ graph.IsMinimumDepth package depth) ∧
    ∀ package depth, graph.Path package depth →
    ∃ least, depths package = some least ∧ graph.ListedOnce lines package least := by
  obtain ⟨depths, hmin, hdept⟩ := minimumDepths_spec hfuel
  obtain ⟨lines, after, hlin, hpri⟩ := foldlM_printed (makeLines_printed hdept fuel 1)
    (graph.directDependencies.insertionSort (· ≤ ·)) [] [] (by simpa using hfuel) (by
      intro package hpac
      have hdir := (mem_insertionSort _).1 hpac
      exact ⟨graph.direct_mem package hdir, .direct hdir⟩)
  -- every package is shown at its minimum depth, by induction along a shortest path
  have hsho : ∀ package depth, graph.Path package depth → graph.IsMinimumDepth package depth →
    package ∈ after := by
    intro package depth hpat
    induction hpat with
    | direct h =>
      intro hlea
      exact hpri.shown _ ((mem_insertionSort _).2 h) ((hdept _ _).2 hlea)
    | @step package dep depth hpat hdep ih =>
      intro hlea
      have hpac : graph.IsMinimumDepth package depth := by
        refine ⟨hpat, fun other hoth => ?_⟩
        exact Nat.succ_le_succ_iff.1 (hlea.2 _ (hoth.step hdep))
      exact hpri.printed.closed package (ih hpac) (by simp) depth ((hdept _ _).2 hpac) dep hdep
        ((hdept _ _).2 hlea)
  refine ⟨depths, lines, hmin, ?_, hdept, ?_⟩
  · rw [run, hmin, bind_some, hlin]
    simp
  · intro package depth hpat
    obtain ⟨least, hlea⟩ := exists_isMinimumDepth hpat
    exact ⟨least, (hdept _ _).2 hlea, by
      obtain ⟨found, hfou, hlis⟩ := hpri.printed.once package (hsho package least hlea.1 hlea) (by simp)
      obtain rfl := some_inj.1 (((hdept _ _).2 hlea).symm.trans hfou)
      exact hlis⟩

end

/-- The example of the source: `a` depends on `b`, which depends on `a` and `c`. -/
def cyclic : ResultGraph Nat where
  dependencyGraph := fun package => if package = 0 then [1] else if package = 1 then [0, 2] else []
  directDependencies := [0]
  nodes := {0, 1, 2}
  direct_mem := by decide
  dependency_mem := by decide

theorem run_lists_dependencies_once_cyclic :
    ∃ depths lines, cyclic.minimumDepths 4 = some depths ∧ cyclic.run 4 = some lines ∧
    (∀ package depth, depths package = some depth ↔ cyclic.IsMinimumDepth package depth) ∧
    ∀ package depth, cyclic.Path package depth →
    ∃ least, depths package = some least ∧ cyclic.ListedOnce lines package least :=
  run_lists_dependencies_once (by decide)

example : cyclic.run 4 = some [{ depth := 1, package := 0 }, { depth := 2, package := 1 },
  { depth := 3, package := 0 },
      { depth := 3, package := 2 }] := by
  decide

end ResultGraph

end Toolchain.SatResolver
