import Mathlib.Data.List.ReduceOption
import Toolchain.Lib.Fields
import Toolchain.Lib.Utf8

/-!
# Pypi.Depgraph — distributions in a sorted table

A row is keyed by a `DistributionKey` with a tab after each field, so distributions with some first
fields stand together.  `get_distributions` scans those that start with the arguments before the first
omitted one, and filters by the others.

Models `lang/python/distributions/distribution_key.py`, `satresolver/pypi/depgraph.py` and
`python_distribution.py`.  A function is `none` where the source raises.
-/

namespace Toolchain.Pypi

open Lib List

structure DistributionKey where
  (packageName version distributionType requiresPython platform abi build : Text)
  deriving DecidableEq, Repr

inductive KeyField
  | packageName | version | distributionType | requiresPython | platform | abi | build
  deriving DecidableEq, Repr

namespace DistributionKey

def getattr (self : DistributionKey) : KeyField → Text
  | .packageName => self.packageName
  | .version => self.version
  | .distributionType => self.distributionType
  | .requiresPython => self.requiresPython
  | .platform => self.platform
  | .abi => self.abi
  | .build => self.build

def astuple (self : DistributionKey) : List Text :=
  [self.packageName, self.version, self.distributionType, self.requiresPython, self.platform,
    self.abi, self.build]

instance : LT DistributionKey where
  lt self other := self.astuple < other.astuple

def ofFields : List Text → Option DistributionKey
  | packageName :: version :: distributionType :: rest =>
    if rest.length ≤ 4 then
      some
        { packageName := packageName, version := version, distributionType := distributionType
          requiresPython := rest.getD 0 "python".toList, platform := rest.getD 1 "any".toList
          abi := rest.getD 2 "none".toList, build := rest.getD 3 [] }
    else
      none
  | _ => none

def toOrderedBytes (self : DistributionKey) : Bytes :=
  encode (['\t'].intercalate self.astuple ++ ['\t'])

def fromOrderedBytes (buf : Bytes) : Option DistributionKey :=
  (decode buf).bind fun text => ofFields (text.splitOn '\t').dropLast

def IsPlain (self : DistributionKey) : Prop :=
  ∀ field ∈ self.astuple, ∀ c ∈ field, '\t' < c

end DistributionKey

/-! ## Resolution data -/

structure ResolutionData where
  requires : List Text
  sha256 : Bytes
  deriving DecidableEq, Repr

namespace ResolutionData

def toBytes (self : ResolutionData) : Bytes :=
  self.sha256 ++ encode (['\t'].intercalate self.requires)

def fromBytes (buf : Bytes) : Option ResolutionData :=
  if buf.length = 32 then
    some { requires := [], sha256 := buf.take 32 }
  else
    (decode (buf.drop 32)).map fun text => { requires := text.splitOn '\t', sha256 := buf.take 32 }

end ResolutionData

structure PythonPackageDistribution where
  key : DistributionKey
  value : ResolutionData
  deriving DecidableEq, Repr

/-! ## Queries -/

structure DistributionArgs where
  packageName : Text
  (version distributionType requiresPython platform abi build : Option Text)

abbrev Table := List (Bytes × Bytes)

namespace Depgraph

def computePrefixAndFilter (kwargs : List (KeyField × Option Text)) :
    List Text × List (KeyField × Text) :=
  let fixedKeyPrefixComponents := ((kwargs.map Prod.snd).takeWhile Option.isSome).reduceOption
  (fixedKeyPrefixComponents, (kwargs.drop fixedKeyPrefixComponents.length).filterMap fun kwarg =>
      kwarg.2.map fun value => (kwarg.1, value))

def filterKey (key : DistributionKey) (kwargs : List (KeyField × Text)) : Bool :=
  kwargs.all fun kwarg => key.getattr kwarg.1 = kwarg.2

def distributionsOf (filterKwargs : List (KeyField × Text)) :
    Table → Option (List PythonPackageDistribution)
  | [] => some []
  | (keyBytes, valueBytes) :: rows =>
    match DistributionKey.fromOrderedBytes keyBytes with
    | none => none
    | some key =>
      if filterKey key filterKwargs then
        match ResolutionData.fromBytes valueBytes with
        | none => none
        | some value => (distributionsOf filterKwargs rows).map ({ key := key, value := value } :: ·)
      else
        distributionsOf filterKwargs rows

section Query

-- `str.lower`
variable (lower : Text → Text)

def canonicalProjectName (projectName : Text) : Text :=
  (lower projectName).map fun c => if c = '_' then '-' else c

def kwargs (args : DistributionArgs) : List (KeyField × Option Text) :=
  [(.packageName, some (canonicalProjectName lower args.packageName)), (.version, args.version),
    (.distributionType, args.distributionType),
    (.requiresPython, args.requiresPython),
    (.platform, args.platform),
    (.abi, args.abi),
    (.build, args.build)]

def getDistributions (db : Table) (args : DistributionArgs) :
    Option (List PythonPackageDistribution) :=
  let (fixedKeyPrefixComponents, filterKwargs) := computePrefixAndFilter (kwargs lower args)
  let keyPrefix := encode (['\t'].intercalate fixedKeyPrefixComponents ++ ['\t'])
  distributionsOf filterKwargs (db.filter fun row => keyPrefix.isPrefixOf row.1)

def matchesKey (args : DistributionArgs) (key : DistributionKey) : Bool :=
  (kwargs lower args).all fun kwarg => kwarg.2.all fun value => key.getattr kwarg.1 = value

end Query

end Depgraph

variable (key : DistributionKey)

namespace DistributionKey

variable {key other : DistributionKey}

lemma ordered_eq : key.toOrderedBytes = encode (terminated '\t' key.astuple) := by
  rw [toOrderedBytes, intercalate_append_sep '\t' key.astuple (by simp [astuple])]

lemma IsPlain.not_mem (hpla : key.IsPlain) : ∀ field ∈ key.astuple, '\t' ∉ field := by
  intro field hfie htab
  exact lt_irrefl _ (hpla field hfie '\t' htab)

lemma ordered_lt_iff (hkey : key.IsPlain) (hoth : other.IsPlain) :
    key.toOrderedBytes < other.toOrderedBytes ↔ key < other := by
  rw [ordered_eq, ordered_eq, encode_lt_encode_iff]
  exact terminated_lt_iff rfl hkey hoth

lemma fromOrderedBytes_ordered (hpla : key.IsPlain) :
    fromOrderedBytes key.toOrderedBytes = some key := by
  rw [fromOrderedBytes, ordered_eq, decode_encode, Option.bind_some,
    splitOn_terminated '\t' key.astuple hpla.not_mem, dropLast_concat]
  rfl

end DistributionKey

variable (fld : KeyField)

namespace Depgraph

@[simp] lemma computePrefixAndFilter_none
    (args : List (KeyField × Option Text)) :
    computePrefixAndFilter ((fld, none) :: args) =
    ([], args.filterMap fun kwarg => kwarg.2.map fun value => (kwarg.1, value)) := by
  simp [computePrefixAndFilter, reduceOption]

@[simp] lemma computePrefixAndFilter_some (val : Text)
    (args : List (KeyField × Option Text)) :
    computePrefixAndFilter ((fld, some val) :: args) =
    (val :: (computePrefixAndFilter args).1, (computePrefixAndFilter args).2) := by
  simp [computePrefixAndFilter]

lemma prefix_and_filter_iff (args : List (KeyField × Option Text)) :
    ((computePrefixAndFilter args).1 <+: args.map (fun kwarg => key.getattr kwarg.1) ∧
    filterKey key (computePrefixAndFilter args).2 = true) ↔
    (args.all fun kwarg => kwarg.2.all fun value => key.getattr kwarg.1 = value) = true := by
  induction args with
  | nil => simp [computePrefixAndFilter, filterKey, reduceOption]
  | cons kwarg args ih =>
    obtain ⟨field, _ | value⟩ := kwarg
    · -- the prefix ends here, and the filter has everything else
      simp only [computePrefixAndFilter_none, nil_prefix, true_and, all_cons,
        Option.all_none, Bool.true_and, filterKey, all_filterMap]
      apply Eq.congr_left
      congr 1
      funext kwarg
      cases kwarg.2 <;> rfl
    · rw [computePrefixAndFilter_some, map_cons, cons_prefix_cons, and_assoc, ih]
      simp only [all_cons, Option.all_some, Bool.and_eq_true, decide_eq_true_eq, eq_comm (a := value)]

lemma astuple_eq (lower : Text → Text) (args : DistributionArgs) (key : DistributionKey) :
    key.astuple = (kwargs lower args).map fun kwarg => key.getattr kwarg.1 := rfl

section Rows

variable (table : List (DistributionKey × Bytes))
  (hplain : ∀ row ∈ table, row.1.IsPlain)
  (hvalue : ∀ row ∈ table, (ResolutionData.fromBytes row.2).isSome = true)
include hplain hvalue

lemma distributionsOf_rows (filterKwargs : List (KeyField × Text)) : (distributionsOf filterKwargs
    (table.map fun row => (row.1.toOrderedBytes, row.2))).map (map (·.key)) =
    some ((table.map Prod.fst).filter fun key => filterKey key filterKwargs) := by
  induction table with
  | nil => rfl
  | cons row table ih =>
    have hrest := ih (fun row hrow => hplain row (.tail _ hrow))
      (fun row hrow => hvalue row (.tail _ hrow))
    have hkey := DistributionKey.fromOrderedBytes_ordered (hplain row (.head _))
    obtain ⟨value, hread⟩ := Option.isSome_iff_exists.1 (hvalue row (.head _))
    obtain ⟨dis, hdis, hkeys⟩ := Option.map_eq_some_iff.1 hrest
    by_cases hpass : filterKey row.1 filterKwargs = true
    · simp [distributionsOf, hkey, hread, hpass, hdis, hkeys]
    · simp [distributionsOf, hkey, hpass, hdis, hkeys]

lemma getDistributions_rows (lower : Text → Text) (args : DistributionArgs) :
    (getDistributions lower (table.map fun row => (row.1.toOrderedBytes, row.2)) args).map (map (·.key)) =
    some ((table.map Prod.fst).filter fun key =>
    decide (terminated '\t' (computePrefixAndFilter (kwargs lower args)).1 <+:
      terminated '\t' key.astuple) &&
    filterKey key (computePrefixAndFilter (kwargs lower args)).2) := by
  have hscan : (table.map fun row => (row.1.toOrderedBytes, row.2)).filter (fun row =>
      (encode (['\t'].intercalate (computePrefixAndFilter (kwargs lower args)).1 ++ ['\t'])).isPrefixOf row.1) =
      (table.filter fun row =>
        decide (terminated '\t' (computePrefixAndFilter (kwargs lower args)).1 <+:
          terminated '\t' row.1.astuple)).map fun row => (row.1.toOrderedBytes, row.2) := by
    rw [filter_map]
    congr 1
    apply filter_congr
    intro row _
    rw [Bool.eq_iff_iff, decide_eq_true_iff, ← encode_isPrefix_encode_iff, Function.comp_apply,
      isPrefixOf_iff_prefix, DistributionKey.ordered_eq, intercalate_append_sep _ _ (by simp [kwargs])]
  have hrows := distributionsOf_rows (table.filter fun row =>
      decide (terminated '\t' (computePrefixAndFilter (kwargs lower args)).1 <+:
        terminated '\t' row.1.astuple))
    (fun row hrow => hplain row (mem_of_mem_filter hrow))
    (fun row hrow => hvalue row (mem_of_mem_filter hrow))
    (computePrefixAndFilter (kwargs lower args)).2
  simp only [getDistributions]
  rw [hscan, hrows, filter_map, filter_map, filter_filter]
  congr 2
  apply filter_congr
  intro row _
  exact Bool.and_comm _ _

end Rows

/-- Keys are ordered and read back as their bytes are, and a query yields the keys with the given
fields, if none before the first omitted one has a tab. -/
theorem keys_order_embedded (lower : Text → Text) :
    (∀ key other : DistributionKey, key.IsPlain → other.IsPlain →
    (key.toOrderedBytes < other.toOrderedBytes ↔ key < other)) ∧
    (∀ key : DistributionKey, key.IsPlain →
      DistributionKey.fromOrderedBytes key.toOrderedBytes = some key) ∧
    ∀ (table : List (DistributionKey × Bytes)) (args : DistributionArgs), (∀ row ∈ table, row.1.IsPlain) →
    (∀ row ∈ table, (ResolutionData.fromBytes row.2).isSome = true) →
    (∀ field ∈ (computePrefixAndFilter (kwargs lower args)).1, '\t' ∉ field) →
    (getDistributions lower (table.map fun row => (row.1.toOrderedBytes, row.2)) args).map
      (List.map (·.key)) =
    some ((table.map Prod.fst).filter (matchesKey lower args)) := by
  refine ⟨?_, ?_, ?_⟩
  · intro key other hkey hoth
    exact DistributionKey.ordered_lt_iff hkey hoth
  · intro key hkey
    exact DistributionKey.fromOrderedBytes_ordered hkey
  · intro table args hpla hval harg
    rw [getDistributions_rows table hpla hval]
    congr 1
    apply filter_congr
    intro key hkey
    obtain ⟨row, hrow, rfl⟩ := mem_map.1 hkey
    rw [Bool.eq_iff_iff, Bool.and_eq_true, decide_eq_true_iff]
    rw [terminated_isPrefix_iff harg (hpla row hrow).not_mem, astuple_eq lower args, prefix_and_filter_iff]
    rfl

def wheelOf (packageName : Text) : DistributionKey :=
  { packageName := packageName, version := "1".toList, distributionType := "bdist_wheel".toList
    requiresPython := "python".toList, platform := "any".toList, abi := "none".toList, build := [] }

def anyOf (packageName : Text) : DistributionArgs :=
  { packageName := packageName, version := none, distributionType := none, requiresPython := none
    platform := none, abi := none, build := none }

instance decidableIsPlain (key : DistributionKey) : Decidable key.IsPlain :=
  decidable_of_iff ((key.astuple.all fun field => field.all fun c => decide ('\t' < c)) = true)
    (by simp [DistributionKey.IsPlain])

theorem wheels_read_back :
    (getDistributions id ([(wheelOf "six".toList, List.replicate 32 0),
    (wheelOf "sixer".toList, List.replicate 32 0)].map
    fun row => (row.1.toOrderedBytes, row.2)) (anyOf "six".toList)).map (List.map (·.key)) =
    some [wheelOf "six".toList] := by
  have hque := (keys_order_embedded id).2.2
    [(wheelOf "six".toList, List.replicate 32 0), (wheelOf "sixer".toList, List.replicate 32 0)]
    (anyOf "six".toList) (by decide) (by decide) (by decide)
  exact hque.trans (by decide)

theorem tab_in_packageName :
    (wheelOf "six".toList).IsPlain ∧ (getDistributions id [((wheelOf "six".toList).toOrderedBytes, List.replicate 32 0)]
    (anyOf "six\t1".toList)).map (List.map (·.key)) = some [wheelOf "six".toList] ∧
    matchesKey id (anyOf "six\t1".toList) (wheelOf "six".toList) = false := by
  refine ⟨by decide, ?_, by decide⟩
  have hrow := getDistributions_rows [(wheelOf "six".toList, List.replicate 32 0)]
    (by decide) (by decide) id (anyOf "six\t1".toList)
  exact hrow.trans (by decide)

end Depgraph

end Toolchain.Pypi
