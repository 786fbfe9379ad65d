import Toolchain.Lib.Dict
import Toolchain.Pypi.DepgraphBuilder

/-!
# Pypi.ModuleMap — which distributions have a module

The builder collects the packages of modules in memory and writes them out after a number of items, also
in the middle of a row.  When it meets a module again it begins with what the table has, so the batches
leave no trace (`run_reads_iff`).

Models `lang/python/modules/module_distribution_map_builder.py`, `module_distribution_map.py` and
`util/leveldb/builder.py`.  A function is `none` where the source raises.
-/

namespace Toolchain.Pypi.ModuleMap

open Lib List Dict
open Depgraph (canonicalProjectName)

abbrev PackageMap := List (Text × List Text)

def splitValue : Option Bytes → Option PackageMap
  | none => some []
  | some [] => some []
  | some (byte :: bytes) =>
    ((byte :: bytes).splitOn 0).mapM fun versionBytes =>
      (decode versionBytes).map fun text => ((text.splitOn '\t').headD [], (text.splitOn '\t').tail)

def getDistributionsForModule (lower : Text → Text) (db : Table) (module : Text) :
    Option (List (Text × Text)) :=
  (splitValue (db.lookup (encode module))).map fun groups =>
    groups.flatMap fun group => group.2.map fun version => (canonicalProjectName lower group.1, version)

/-! ## The builder -/

structure ModuleRow where
  key : DistributionKey
  modules : List Text

structure Builder where
  db : Table
  writeBatch : List (Bytes × Bytes)
  moduleMap : List (Text × PackageMap)
  numItems : Nat

def versionsBytes (group : Text × List Text) : Bytes :=
  encode (group.1 ++ '\t' :: ['\t'].intercalate group.2)

def moduleBytes (packageNameToVersions : PackageMap) : Bytes :=
  [0].intercalate ((packageNameToVersions.insertionSort fun a b => a.1 ≤ b.1).map fun group =>
    versionsBytes (group.1, group.2.insertionSort fun a b => a ≤ b))

namespace Builder

def put (self : Builder) (key value : Bytes) : Builder :=
  { self with writeBatch := self.writeBatch ++ [(key, value)] }

def flush (self : Builder) : Builder :=
  let self := self.moduleMap.foldl (fun self entry => self.put (encode entry.1) (moduleBytes entry.2)) self
  { self with
    db := self.writeBatch.foldl (fun db entry => DepgraphBuilder.put db entry.1 entry.2) self.db
    writeBatch := []
    moduleMap := [] }

def itemHandled (writeBatchSize : Nat) (self : Builder) : Option Builder :=
  let self := { self with numItems := self.numItems + 1 }
  if writeBatchSize = 0 then none
  else if self.numItems % writeBatchSize = 0 then some self.flush
  else some self

def getInitializedData (self : Builder) (module : Text) : Option PackageMap :=
  let packageNameToVersions := (self.moduleMap.lookup module).getD []
  if packageNameToVersions.isEmpty then
    (splitValue (self.db.lookup (encode module))).map fun groups =>
      groups.foldl (fun data group => assign data (group.1, group.2.dedup)) []
  else
    some packageNameToVersions

def addVersion (data : PackageMap) (key : DistributionKey) : PackageMap :=
  assign data (key.packageName, ((data.lookup key.packageName).getD []).insert key.version)

def processModule (writeBatchSize : Nat) (key : DistributionKey) (self : Builder) (module : Text) :
    Option Builder :=
  (self.getInitializedData module).bind fun data =>
    itemHandled writeBatchSize
      { self with moduleMap := assign self.moduleMap (module, addVersion data key) }

def processRow (writeBatchSize : Nat) (self : Builder) (row : ModuleRow) : Option Builder :=
  row.modules.foldlM (processModule writeBatchSize row.key) self

def run (writeBatchSize : Nat) (existing : Table) (rows : List ModuleRow) : Option Table :=
  (rows.foldlM (processRow writeBatchSize)
    { db := existing, writeBatch := [], moduleMap := [], numItems := 0 }).map fun self => self.flush.db

end Builder

/-! ## Packages -/

def Plain (text : Text) : Prop := '\t' ∉ text ∧ '\x00' ∉ text

def HasPair (packages : PackageMap) (pair : Text × Text) : Prop :=
  ∃ versions, (pair.1, versions) ∈ packages ∧ pair.2 ∈ versions

structure PairPlain (lower : Text → Text) (pair : Text × Text) : Prop where
  canonical : canonicalProjectName lower pair.1 = pair.1
  name : Plain pair.1
  version : Plain pair.2

structure WellFormed (lower : Text → Text) (packages : PackageMap) : Prop where
  distinct : (packages.map Prod.fst).Nodup
  versions_ne_nil : ∀ group ∈ packages, group.2 ≠ []
  plain : ∀ pair, HasPair packages pair → PairPlain lower pair

variable {lower : Text → Text} {packages : PackageMap}

lemma WellFormed.exists_pairPlain (h : WellFormed lower packages) {group : Text × List Text}
    (hgroup : group ∈ packages) : ∃ version, PairPlain lower (group.1, version) := by
  obtain ⟨version, hversion⟩ := exists_mem_of_ne_nil _ (h.versions_ne_nil group hgroup)
  exact ⟨version, h.plain _ ⟨group.2, hgroup, hversion⟩⟩

lemma splitOn_versions {name : Text} {versions : List Text} (hnam : '\t' ∉ name)
    (hne : versions ≠ []) (hver : ∀ version ∈ versions, '\t' ∉ version) :
    (name ++ '\t' :: ['\t'].intercalate versions).splitOn '\t' = name :: versions := by
  have hjoi : name ++ '\t' :: ['\t'].intercalate versions = ['\t'].intercalate (name :: versions) := by
    obtain ⟨version, rest, rfl⟩ := exists_cons_of_ne_nil hne
    simp [intercalate]
  rw [hjoi]
  refine splitOn_intercalate _ ?_ (cons_ne_nil _ _)
  intro field hfie
  rcases mem_cons.mp hfie with rfl | hfie
  · exact hnam
  · exact hver field hfie

lemma mem_of_mem_intercalate {sep c : Char} {flds : List Text} (h : c ∈ [sep].intercalate flds)
    (hne : c ≠ sep) :
    ∃ field ∈ flds, c ∈ field := by
  induction flds with
  | nil => simp [intercalate] at h
  | cons field flds ih =>
    cases flds with
    | nil => exact ⟨field, mem_singleton_self field, by simpa [intercalate] using h⟩
    | cons next flds =>
      rw [intercalate_cons_cons, append_assoc, mem_append, mem_append] at h
      rcases h with hfie | hsep | hres
      · exact ⟨field, (.head _), hfie⟩
      · exact absurd (mem_singleton.mp hsep) hne
      · obtain ⟨found, hfou, hc⟩ := ih hres
        exact ⟨found, mem_cons_of_mem field hfou, hc⟩

lemma splitValue_of_ne_nil {val : Bytes} (hne : val ≠ []) : splitValue (some val) =
    (val.splitOn 0).mapM fun versionBytes =>
    (decode versionBytes).map fun text =>
    ((text.splitOn '\t').headD [], (text.splitOn '\t').tail) := by
  obtain ⟨byte, bytes, rfl⟩ := exists_cons_of_ne_nil hne
  rfl

lemma splitValue_intercalate (h : WellFormed lower packages) (hne : packages ≠ []) :
    splitValue (some ([0].intercalate (packages.map versionsBytes))) = some packages := by
  have hspl : ([(0 : UInt8)].intercalate (packages.map versionsBytes)).splitOn 0 =
      packages.map versionsBytes := by
    refine splitOn_intercalate _ ?_ (by simpa using hne)
    intro bytes hbyt
    obtain ⟨group, hgroup, rfl⟩ := mem_map.mp hbyt
    obtain ⟨_, hpair⟩ := h.exists_pairPlain hgroup
    rw [versionsBytes, zero_mem_encode_iff, mem_append, mem_cons]
    rintro (hmem | hmem | hmem)
    · exact hpair.name.2 hmem
    · cases hmem
    · obtain ⟨version, hver, hnul⟩ := mem_of_mem_intercalate hmem (by decide)
      exact (h.plain (group.1, version) ⟨_, hgroup, hver⟩).version.2 hnul
  have hval : [(0 : UInt8)].intercalate (packages.map versionsBytes) ≠ [] := by
    intro hnil
    rw [hnil] at hspl
    obtain ⟨group, rest, rfl⟩ := exists_cons_of_ne_nil hne
    have hgroup : versionsBytes group = [] := (cons.inj hspl).1.symm
    rw [versionsBytes, encode_eq_nil_iff] at hgroup
    simp at hgroup
  rw [splitValue_of_ne_nil hval, hspl]
  refine (mapM_map_eq_some fun group hgroup => ?_).trans (congrArg some (map_id packages))
  obtain ⟨_, hpair⟩ := h.exists_pairPlain hgroup
  have hfie := splitOn_versions hpair.name.1 (h.versions_ne_nil group hgroup)
    fun version hver => (h.plain (group.1, version) ⟨_, hgroup, hver⟩).version.1
  rw [versionsBytes, decode_encode, Option.map_some, hfie]
  rfl

/-! ## What the operations do to the packages -/

lemma mem_lookup_getD_iff (h : (packages.map Prod.fst).Nodup) {name ver : Text} :
    ver ∈ (packages.lookup name).getD [] ↔ HasPair packages (name, ver) := by
  constructor
  · intro hmem
    cases hloo : packages.lookup name with
    | none => simp [hloo] at hmem
    | some vers =>
      rw [hloo] at hmem
      exact ⟨vers, (lookup_eq_some_iff_mem h).mp hloo, hmem⟩
  · rintro ⟨vers, hmem, hver⟩
    rwa [(lookup_eq_some_iff_mem h).mpr hmem]

lemma hasPair_addVersion_iff (h : (packages.map Prod.fst).Nodup) (key : DistributionKey)
    (pair : Text × Text) :
    HasPair (Builder.addVersion packages key) pair ↔ HasPair packages pair ∨
      pair = (key.packageName, key.version) := by
  obtain ⟨name, version⟩ := pair
  have hold := @mem_lookup_getD_iff packages h key.packageName version
  by_cases hnam : name = key.packageName
  · subst hnam
    rw [← hold]
    simp [HasPair, Builder.addVersion, mem_assign_iff, or_comm]
  · simp [HasPair, Builder.addVersion, mem_assign_iff, hnam]

variable {key : DistributionKey} {arranged groups : PackageMap}

lemma WellFormed.addVersion (h : WellFormed lower packages)
    (hkey : PairPlain lower (key.packageName, key.version)) :
    WellFormed lower (Builder.addVersion packages key) where
  distinct := nodup_keys_assign h.distinct _
  versions_ne_nil group hgroup := by
    rcases mem_assign_iff.mp hgroup with rfl | ⟨hmem, -⟩
    · exact ne_nil_of_mem mem_insert_self
    · exact h.versions_ne_nil group hmem
  plain pair hpair := by
    rcases (hasPair_addVersion_iff h.distinct key pair).mp hpair with hold | rfl
    · exact h.plain pair hold
    · exact hkey

/-- The order of the packages does not matter, nor how their versions are listed. -/
structure Rearranged (packages arranged : PackageMap) : Prop where
  names : (arranged.map Prod.fst).Perm (packages.map Prod.fst)
  versions : ∀ group ∈ arranged, ∃ versions, (group.1, versions) ∈ packages ∧
    ∀ version, version ∈ group.2 ↔ version ∈ versions

lemma Rearranged.hasPair_iff (h : Rearranged packages arranged) (hdis : (packages.map Prod.fst).Nodup)
    (pair : Text × Text) : HasPair arranged pair ↔ HasPair packages pair := by
  constructor
  · rintro ⟨versions, hmem, hver⟩
    obtain ⟨vers', hmem', hsam⟩ := h.versions _ hmem
    exact ⟨vers', hmem', (hsam pair.2).mp hver⟩
  · rintro ⟨versions, hmem, hver⟩
    have hnam := h.names.mem_iff.mpr (mem_map.mpr ⟨_, hmem, rfl⟩)
    obtain ⟨group, hgroup, hfst⟩ := mem_map.mp hnam
    obtain ⟨vers', hmem', hsam⟩ := h.versions group hgroup
    -- a name has its versions only once
    have heq : vers' = versions := by
      rw [hfst] at hmem'
      exact Option.some.inj (((lookup_eq_some_iff_mem hdis).mpr hmem').symm.trans
        ((lookup_eq_some_iff_mem hdis).mpr hmem))
    rw [heq] at hsam
    exact ⟨group.2, hfst ▸ hgroup, (hsam pair.2).mpr hver⟩

lemma WellFormed.rearranged (h : WellFormed lower packages) (harr : Rearranged packages arranged) :
    WellFormed lower arranged where
  distinct := harr.names.nodup_iff.mpr h.distinct
  versions_ne_nil group hgroup := by
    obtain ⟨vers, hmem, hsam⟩ := harr.versions group hgroup
    obtain ⟨version, hver⟩ := exists_mem_of_ne_nil _ (h.versions_ne_nil _ hmem)
    exact ne_nil_of_mem ((hsam version).mpr hver)
  plain pair hpair := h.plain pair ((harr.hasPair_iff h.distinct pair).mp hpair)

def sortedMap (packages : PackageMap) : PackageMap :=
  (packages.insertionSort fun a b => a.1 ≤ b.1).map fun group =>
    (group.1, group.2.insertionSort fun a b => a ≤ b)

lemma rearranged_sorted (packages : PackageMap) : Rearranged packages (sortedMap packages) where
  names := by
    rw [sortedMap, map_map]
    exact (perm_insertionSort _ packages).map Prod.fst
  versions group hgroup := by
    obtain ⟨old, hold, rfl⟩ := mem_map.mp hgroup
    exact ⟨old.2, (mem_insertionSort _).mp hold, fun version => mem_insertionSort _⟩

lemma splitValue_moduleBytes (h : WellFormed lower packages) (hne : packages ≠ []) :
    splitValue (some (moduleBytes packages)) = some (sortedMap packages) := by
  have hsor := h.rearranged (rearranged_sorted packages)
  have hbyt : moduleBytes packages = [0].intercalate ((sortedMap packages).map versionsBytes) := by
    rw [moduleBytes, sortedMap, map_map]
    rfl
  rw [hbyt]
  refine splitValue_intercalate hsor ?_
  intro hnil
  have hnam := (rearranged_sorted packages).names
  rw [hnil] at hnam
  exact hne (by simpa using hnam.symm)

def initialized (groups : PackageMap) : PackageMap :=
  groups.foldl (fun data group => assign data (group.1, group.2.dedup)) []

lemma initialized_eq (h : (groups.map Prod.fst).Nodup) :
    initialized groups = groups.map fun group => (group.1, group.2.dedup) := by
  have hfol : ∀ data : PackageMap, ((data ++ groups).map Prod.fst).Nodup →
      groups.foldl (fun data group => assign data (group.1, group.2.dedup)) data =
      data ++ groups.map fun group => (group.1, group.2.dedup) := by
    clear h
    induction groups with
    | nil => simp
    | cons group groups ih =>
      intro data hnod
      have hfre : group.1 ∉ data.map Prod.fst := by
        rw [map_append, nodup_append] at hnod
        exact fun hmem => hnod.2.2 _ hmem _ (.head _) rfl
      have hasg : assign data (group.1, group.2.dedup) = data ++ [(group.1, group.2.dedup)] :=
        assign_of_notMem hfre
      rw [foldl_cons, hasg, ih]
      · simp
      · simpa using hnod
  exact hfol [] h

lemma rearranged_initialized (h : (groups.map Prod.fst).Nodup) :
    Rearranged groups (initialized groups) := by
  rw [initialized_eq h]
  constructor
  · rw [map_map]
    exact List.Perm.refl _
  · intro group hgroup
    obtain ⟨old, hold, rfl⟩ := mem_map.mp hgroup
    exact ⟨old.2, hold, fun version => mem_dedup⟩

/-! ## The table -/

lemma lookup_put (db : Table) (key value other : Bytes) : (DepgraphBuilder.put db key value).lookup other =
    if other = key then some value else db.lookup other := by
  rw [DepgraphBuilder.put, lookup_cons]
  by_cases hoth : other = key
  · simp [hoth]
  have hne : (other == key) = false := by simpa using hoth
  rw [hne, if_neg hoth]
  simp only
  induction db with
  | nil => rfl
  | cons row db ih =>
    obtain ⟨name, old⟩ := row
    rw [filter_cons]
    split
    · rw [lookup_cons, lookup_cons, ih]
    rename_i hkey
    have hnam : name = key := by simpa using hkey
    have hski : (other == name) = false := by simpa [hnam] using hoth
    rw [ih, lookup_cons, hski]

namespace Builder

lemma lookup_putAll (entries : List (Text × PackageMap)) (h : (entries.map Prod.fst).Nodup)
    (db : Table) (module : Text) :
    (entries.foldl (fun db entry => DepgraphBuilder.put db (encode entry.1) (moduleBytes entry.2))
        db).lookup (encode module) =
      match entries.lookup module with
      | some packages => some (moduleBytes packages)
      | none => db.lookup (encode module) := by
  induction entries generalizing db with
  | nil => rfl
  | cons entry entries ih =>
    obtain ⟨name, packages⟩ := entry
    rw [map_cons, nodup_cons] at h
    rw [foldl_cons, ih h.2, lookup_cons, lookup_put]
    by_cases hmodule : module = name
    · subst hmodule
      have hnon : entries.lookup module = none := by
        rw [lookup_eq_none_iff]
        intro entry hent
        simp only [bne_iff_ne, ne_eq]
        rintro rfl
        exact h.1 (mem_map.mpr ⟨entry, hent, rfl⟩)
      simp [hnon]
    · have hne : (module == name) = false := by simpa using hmodule
      have hkey : encode module ≠ encode name := fun heq => hmodule (encode_injective heq)
      simp [hne, hkey]

lemma lookup_flush (self : Builder) (hbat : self.writeBatch = [])
    (hdis : (self.moduleMap.map Prod.fst).Nodup) (module : Text) :
    self.flush.db.lookup (encode module) = match self.moduleMap.lookup module with
      | some packages => some (moduleBytes packages)
      | none => self.db.lookup (encode module) := by
  have hput : ∀ (entries : List (Text × PackageMap)) (builder : Builder),
      entries.foldl (fun self entry => self.put (encode entry.1) (moduleBytes entry.2)) builder =
        { builder with
          writeBatch := builder.writeBatch ++ entries.map fun entry =>
            (encode entry.1, moduleBytes entry.2) } := by
    intro entries
    induction entries with
    | nil => simp
    | cons entry entries ih =>
      intro builder
      rw [foldl_cons, ih]
      simp [put]
  rw [flush, hput, hbat, nil_append, foldl_map]
  exact lookup_putAll self.moduleMap hdis self.db module

/-! ## Batches -/

def packagesOf (builder : Builder) (module : Text) : Option PackageMap :=
  (builder.moduleMap.lookup module).or (splitValue (builder.db.lookup (encode module)))

/-- The pairs of a module in memory are all there, and those of another one are in the table. -/
structure Represents (lower : Text → Text) (builder : Builder)
    (contents : Text → Text × Text → Prop) : Prop where
  distinct : (builder.moduleMap.map Prod.fst).Nodup
  written : builder.writeBatch = []
  nonempty : ∀ module packages, builder.moduleMap.lookup module = some packages → packages ≠ []
  packages : ∀ module, ∃ packages, builder.packagesOf module = some packages ∧ WellFormed lower packages ∧
    ∀ pair, HasPair packages pair ↔ contents module pair

variable {builder : Builder} {contents : Text → Text × Text → Prop}

lemma Represents.getInitializedData (h : Represents lower builder contents) (module : Text) :
    ∃ data, builder.getInitializedData module = some data ∧ WellFormed lower data ∧
    ∀ pair, HasPair data pair ↔ contents module pair := by
  obtain ⟨groups, hgroups, hwel, hpai⟩ := h.packages module
  unfold Builder.getInitializedData
  unfold packagesOf at hgroups
  cases hloo : builder.moduleMap.lookup module with
  | some packages =>
    rw [hloo, Option.some_or] at hgroups
    obtain rfl := Option.some.inj hgroups
    exact ⟨packages, by simp [h.nonempty module packages hloo], hwel, hpai⟩
  | none =>
    rw [hloo, Option.none_or] at hgroups
    have hini := rearranged_initialized hwel.distinct
    refine ⟨initialized groups, by simp [hgroups, initialized], hwel.rearranged hini, ?_⟩
    exact fun pair => (hini.hasPair_iff hwel.distinct pair).trans (hpai pair)

lemma Represents.flush (h : Represents lower builder contents) :
    Represents lower builder.flush contents where
  distinct := nodup_nil
  written := rfl
  nonempty := nofun
  packages module := by
    obtain ⟨groups, hgroups, hwel, hpai⟩ := h.packages module
    show ∃ packages, splitValue (builder.flush.db.lookup (encode module)) = some packages ∧ _
    rw [lookup_flush builder h.written h.distinct]
    unfold packagesOf at hgroups
    cases hloo : builder.moduleMap.lookup module with
    | none =>
      rw [hloo, Option.none_or] at hgroups
      exact ⟨groups, hgroups, hwel, hpai⟩
    | some packages =>
      rw [hloo, Option.some_or] at hgroups
      obtain rfl := Option.some.inj hgroups
      have hsor := rearranged_sorted packages
      exact ⟨sortedMap packages, splitValue_moduleBytes hwel (h.nonempty module packages hloo),
        hwel.rearranged hsor, fun pair => (hsor.hasPair_iff hwel.distinct pair).trans (hpai pair)⟩

variable {writeBatchSize : Nat}

lemma Represents.itemHandled (h : Represents lower builder contents) (hsiz : 1 ≤ writeBatchSize) :
    ∃ builder', itemHandled writeBatchSize builder = some builder' ∧
      Represents lower builder' contents := by
  have hcou : Represents lower { builder with numItems := builder.numItems + 1 } contents :=
    ⟨h.distinct, h.written, h.nonempty, h.packages⟩
  unfold Builder.itemHandled
  dsimp only
  rw [if_neg (Nat.ne_of_gt hsiz)]
  split
  · exact ⟨_, rfl, hcou.flush⟩
  · exact ⟨_, rfl, hcou⟩

def RowPlain (lower : Text → Text) (key : DistributionKey) : Prop :=
  PairPlain lower (key.packageName, key.version)

section

variable (h : Represents lower builder contents)

include h

lemma Represents.processModule (hkey : RowPlain lower key) (hsiz : 1 ≤ writeBatchSize) (module : Text) :
    ∃ builder', processModule writeBatchSize key builder module = some builder' ∧
    Represents lower builder' fun other pair => contents other pair ∨
    other = module ∧ pair = (key.packageName, key.version) := by
  obtain ⟨data, hdat, hwel, hpai⟩ := h.getInitializedData module
  rw [Builder.processModule, hdat, Option.bind_some]
  have hadd : Represents lower
      { builder with moduleMap := assign builder.moduleMap (module, addVersion data key) }
      fun other pair => contents other pair ∨ other = module ∧ pair = (key.packageName, key.version) := by
    refine ⟨nodup_keys_assign h.distinct _, h.written, ?_, ?_⟩
    · intro other packages hloo
      rw [lookup_assign] at hloo
      split_ifs at hloo with hoth
      · obtain rfl := Option.some.inj hloo
        exact ne_nil_of_mem (mem_assign_iff.mpr (.inl rfl))
      · exact h.nonempty other packages hloo
    · intro other
      rw [packagesOf, lookup_assign]
      by_cases hoth : other = module
      · subst hoth
        refine ⟨_, by rw [if_pos rfl, Option.some_or], hwel.addVersion hkey, fun pair => ?_⟩
        rw [hasPair_addVersion_iff hwel.distinct, hpai]
        simp
      · obtain ⟨packages, hpac, hothw, hothp⟩ := h.packages other
        exact ⟨packages, by rwa [if_neg hoth], hothw, fun pair => by simp [hothp, hoth]⟩
  exact hadd.itemHandled hsiz

lemma Represents.congr {contents' : Text → Text × Text → Prop}
    (hcon : ∀ module pair, contents module pair ↔ contents' module pair) :
      Represents lower builder contents' :=
  { h with
    packages := by
      intro module
      obtain ⟨packages, hpac, hwel, hpai⟩ := h.packages module
      exact ⟨packages, hpac, hwel, fun pair => (hpai pair).trans (hcon module pair)⟩ }

lemma Represents.processRow {row : ModuleRow} (hkey : RowPlain lower row.key) (hsiz : 1 ≤ writeBatchSize) :
    ∃ builder', processRow writeBatchSize builder row = some builder' ∧
    Represents lower builder' fun module pair => contents module pair ∨
    module ∈ row.modules ∧ pair = (row.key.packageName, row.key.version) := by
  unfold Builder.processRow
  induction row.modules generalizing builder contents with
  | nil => exact ⟨builder, rfl, h.congr (by simp)⟩
  | cons module modules ih =>
    obtain ⟨first, hfir, hrep⟩ := h.processModule hkey hsiz module
    obtain ⟨last, hlas, hall⟩ := ih hrep
    refine ⟨last, ?_, hall.congr ?_⟩
    · rwa [foldlM_cons, hfir]
    · intro other pair
      rw [mem_cons, or_and_right, or_assoc]

end

lemma Represents.processRows (hsiz : 1 ≤ writeBatchSize) {rows : List ModuleRow}
    (hrow : ∀ row ∈ rows, RowPlain lower row.key) (h : Represents lower builder contents) :
    ∃ builder', rows.foldlM (Builder.processRow writeBatchSize) builder = some builder' ∧
    Represents lower builder' fun module pair => contents module pair ∨
    ∃ row ∈ rows, module ∈ row.modules ∧ pair = (row.key.packageName, row.key.version) := by
  induction rows generalizing builder contents with
  | nil => exact ⟨builder, rfl, h.congr (by simp)⟩
  | cons row rows ih =>
    obtain ⟨first, hfir, hrep⟩ := h.processRow (hrow row (.head _)) hsiz
    obtain ⟨last, hlas, hall⟩ := ih (fun other hoth => hrow other (mem_cons_of_mem row hoth)) hrep
    refine ⟨last, ?_, hall.congr ?_⟩
    · rwa [foldlM_cons, hfir]
    · intro module pair
      simp only [mem_cons, exists_eq_or_imp, or_assoc]

end Builder

/-! ## Reading -/

lemma distributions_eq (h : WellFormed lower packages)
    {db : Table} {module : Text} (hspl : splitValue (db.lookup (encode module)) = some packages) :
    ∃ pairs, getDistributionsForModule lower db module = some pairs ∧
    ∀ pair, pair ∈ pairs ↔ HasPair packages pair := by
  refine ⟨_, by rw [getDistributionsForModule, hspl, Option.map_some], ?_⟩
  intro pair
  rw [mem_flatMap]
  constructor
  · rintro ⟨group, hgroup, hpai⟩
    obtain ⟨version, hver, rfl⟩ := mem_map.mp hpai
    have hpair : HasPair packages (group.1, version) := ⟨_, hgroup, hver⟩
    rwa [(h.plain _ hpair).canonical]
  · rintro ⟨vers, hmem, hver⟩
    refine ⟨_, hmem, mem_map.mpr ⟨pair.2, hver, ?_⟩⟩
    rw [(h.plain pair ⟨vers, hmem, hver⟩).canonical]

def TableWellFormed (lower : Text → Text) (db : Table) : Prop :=
  ∀ module, ∃ groups, splitValue (db.lookup (encode module)) = some groups ∧ WellFormed lower groups

/-- Whatever the size of the batches, a module has afterwards the distributions it had before and
those of the rows that list it. -/
theorem run_reads_iff (lower : Text → Text) (writeBatchSize : Nat) (hsize : 1 ≤ writeBatchSize)
    (existing : Table) (hexisting : TableWellFormed lower existing) (rows : List ModuleRow)
    (hrows : ∀ row ∈ rows, Builder.RowPlain lower row.key) :
    ∃ db, Builder.run writeBatchSize existing rows = some db ∧ ∀ module, ∃ before after,
    getDistributionsForModule lower existing module = some before ∧
    getDistributionsForModule lower db module = some after ∧
    ∀ pair, pair ∈ after ↔ pair ∈ before ∨
    ∃ row ∈ rows, module ∈ row.modules ∧ pair = (row.key.packageName, row.key.version) := by
  choose groups hspl hwel using hexisting
  have hini : Builder.Represents lower
      { db := existing, writeBatch := [], moduleMap := [], numItems := 0 }
      fun module pair => HasPair (groups module) pair :=
    { distinct := nodup_nil
      written := rfl
      nonempty := nofun
      packages := fun module => ⟨groups module, hspl module, hwel module, fun _ => Iff.rfl⟩ }
  obtain ⟨builder, hbui, hall⟩ := hini.processRows hsize hrows
  refine ⟨builder.flush.db, by rw [Builder.run, hbui, Option.map_some], ?_⟩
  intro module
  obtain ⟨groups', hsplit', hwell', hpai⟩ := hall.flush.packages module
  obtain ⟨before, hbef, hmeb⟩ := distributions_eq (hwel module) (hspl module)
  obtain ⟨after, haft, hmea⟩ := distributions_eq hwell' hsplit'
  refine ⟨before, after, hbef, haft, fun pair => ?_⟩
  rw [hmea, hpai, hmeb]

/-! ## A small table -/

def asciiLower (text : Text) : Text := text.map Char.toLower

def sixPackages : PackageMap := [("six".toList, ["1.15.0".toList])]

def sixTable : Table := [(encode "six".toList, moduleBytes sixPackages)]

def sixRow : ModuleRow where
  key :=
    { packageName := "six".toList, version := "1.16.0".toList, distributionType := "WHEEL".toList
      requiresPython := ">=2.7".toList, platform := "any".toList, abi := "none".toList, build := "".toList }
  modules := ["six".toList, "six.moves".toList, "six.moves.urllib".toList]

lemma wf_sixPackages : WellFormed asciiLower sixPackages where
  distinct := nodup_singleton _
  versions_ne_nil group hgroup := by
    rw [mem_singleton.mp hgroup]
    exact cons_ne_nil _ _
  plain := by
    rintro ⟨name, version⟩ ⟨versions, hmem, hver⟩
    obtain ⟨rfl, rfl⟩ := Prod.mk.inj (mem_singleton.mp hmem)
    obtain rfl := mem_singleton.mp hver
    exact ⟨rfl, ⟨by decide, by decide⟩, ⟨by decide, by decide⟩⟩

lemma wf_sixTable : TableWellFormed asciiLower sixTable := by
  intro module
  by_cases hmodule : module = "six".toList
  · refine ⟨sortedMap sixPackages, ?_, wf_sixPackages.rearranged (rearranged_sorted sixPackages)⟩
    have hloo : sixTable.lookup (encode module) = some (moduleBytes sixPackages) := by
      rw [hmodule]
      exact lookup_cons_self
    rw [hloo]
    exact splitValue_moduleBytes wf_sixPackages (cons_ne_nil _ _)
  · have hkey : (encode module == encode "six".toList) = false := by
      simpa using fun heq => hmodule (encode_injective heq)
    have hloo : sixTable.lookup (encode module) = none := by
      rw [sixTable, lookup_cons, hkey]
      rfl
    refine ⟨[], by rw [hloo, splitValue], ?_⟩
    exact ⟨nodup_nil, nofun, fun _ ⟨_, hmem, _⟩ => absurd hmem not_mem_nil⟩

theorem run_reads_sixTable :
    ∃ db, Builder.run 2 sixTable [sixRow] = some db ∧ ∀ module, ∃ before after,
    getDistributionsForModule asciiLower sixTable module = some before ∧
    getDistributionsForModule asciiLower db module = some after ∧
    ∀ pair, pair ∈ after ↔ pair ∈ before ∨ ∃ row ∈ [sixRow], module ∈ row.modules ∧
    pair = (row.key.packageName, row.key.version) := by
  refine run_reads_iff asciiLower 2 (by decide) sixTable wf_sixTable [sixRow] ?_
  intro row hrow
  rw [mem_singleton.mp hrow]
  exact ⟨rfl, ⟨by decide, by decide⟩, ⟨by decide, by decide⟩⟩

end Toolchain.Pypi.ModuleMap
