import Mathlib

/-!
# Ledger — totals kept by a journal of movements

To count a population by key one keeps a *journal* of movements from one key to another, and now and
then folds entries into a sharded table of counters.  The order does not matter (`net_perm`,
`balance_collate`), nor does the shard (`Counters.total_add`).
-/

namespace Toolchain.Lib

open List

variable {K : Type} [DecidableEq K]

/-! ## The journal -/

structure Entry (K : Type) where
  (source target : Option K)
  amount : Int

def Entry.net (e : Entry K) (k : K) : Int :=
  (if e.target = some k then e.amount else 0) - (if e.source = some k then e.amount else 0)

lemma Entry.net_move (a b : K) (amt : Int) (k : K) : (Entry.mk (some a) (some b) amt).net k =
    (if b = k then amt else 0) - (if a = k then amt else 0) := by
  by_cases ha : a = k <;> by_cases hb : b = k <;> simp [Entry.net, ha, hb]

lemma Entry.net_new (b : K) (amt : Int) (k : K) :
    (Entry.mk none (some b) amt).net k = if b = k then amt else 0 := by
  by_cases hb : b = k <;> simp [Entry.net, hb]

def net (es : List (Entry K)) (k : K) : Int :=
  (es.map fun e => e.net k).sum

@[simp] lemma net_nil (k : K) : net [] k = 0 := rfl

@[simp] lemma net_cons (e : Entry K) (es : List (Entry K)) (k : K) :
    net (e :: es) k = e.net k + net es k := by
  simp [net]

@[simp] lemma net_append (es es' : List (Entry K)) (k : K) :
    net (es ++ es') k = net es k + net es' k := by
  simp [net]

lemma net_perm {es es' : List (Entry K)} (h : es.Perm es') (k : K) :
    net es k = net es' k := (h.map _).sum_eq

/-! ## Taking entries out -/

lemma perm_of_sublist {α : Type} (f : α → K) {batch rows : List α} (h : batch.Sublist rows)
    (huni : (rows.map f).Nodup) :
    (batch ++ rows.filter fun row => decide (f row ∉ batch.map f)).Perm rows := by
  have hrows := huni.of_map
  -- neither list has a row twice, and they have the same rows
  refine (perm_ext_iff_of_nodup (nodup_append'.2 ⟨h.nodup hrows, hrows.filter _, ?_⟩) hrows).2
    fun row => ?_
  · intro row hbatch hrest
    exact of_decide_eq_true (mem_filter.1 hrest).2 (mem_map_of_mem hbatch)
  · have hinj : row ∈ rows → (f row ∈ batch.map f ↔ row ∈ batch) := fun hrow =>
      ⟨fun hmem => by
        obtain ⟨other, hother, heq⟩ := mem_map.1 hmem
        rwa [← inj_on_of_nodup_map huni (h.subset hother) hrow heq], mem_map_of_mem⟩
    have hsub : row ∈ batch → row ∈ rows := fun hrow => h.subset hrow
    simp only [mem_append, mem_filter, decide_eq_true_eq]
    tauto

/-! ## Collating entries -/

/-- `dictionary[key] += amount`, in a dictionary whose default value is zero. -/
def addTo (k : K) (amount : Int) : List (K × Int) → List (K × Int)
  | [] => [(k, amount)]
  | item :: items =>
    if item.1 = k then (k, item.2 + amount) :: items else item :: addTo k amount items

def balance (items : List (K × Int)) (k : K) : Int :=
  (items.map fun item => if item.1 = k then item.2 else 0).sum

lemma balance_perm {items items' : List (K × Int)} (h : items.Perm items') (k : K) :
    balance items k = balance items' k :=
  (h.map _).sum_eq

lemma balance_addTo (k k' : K) (amt : Int) (items : List (K × Int)) :
    balance (addTo k amt items) k' = balance items k' + if k = k' then amt else 0 := by
  induction items with
  | nil => simp [addTo, balance]
  | cons item items ih =>
    by_cases hk : item.1 = k
    · subst hk
      by_cases hk' : item.1 = k'
      · simp [addTo, balance, hk']
        omega
      · simp [addTo, balance, hk']
    · have hcon : ∀ items, balance (item :: items) k' =
          (if item.1 = k' then item.2 else 0) + balance items k' := fun items => by simp [balance]
      simp only [addTo, hk, if_false, hcon, ih]
      omega

def addToOption (amount : Int) (items : List (K × Int)) : Option K → List (K × Int)
  | none => items
  | some k => addTo k amount items

def collate (es : List (Entry K)) : List (K × Int) :=
  es.foldl (fun items e => addToOption e.amount (addToOption (-e.amount) items e.source) e.target) []

lemma balance_addToOption (key : Option K) (k : K) (amt : Int) (items : List (K × Int)) :
    balance (addToOption amt items key) k = balance items k + if key = some k then amt else 0 := by
  cases key with
  | none => simp [addToOption]
  | some key => simpa [addToOption] using balance_addTo key k amt items

lemma balance_collate (es : List (Entry K)) (k : K) : balance (collate es) k = net es k := by
  have hfol : ∀ (es : List (Entry K)) (items : List (K × Int)), balance (es.foldl (fun items e =>
        addToOption e.amount (addToOption (-e.amount) items e.source) e.target) items) k =
          balance items k + net es k := by
    intro es
    induction es with
    | nil => simp
    | cons e es ih =>
      intro items
      rw [foldl_cons, ih, balance_addToOption, balance_addToOption, net_cons, Entry.net]
      split <;> split <;> omega
  simpa [collate, balance] using hfol es []

/-! ## Sharded counters -/

structure Counter (K : Type) where
  shard : Nat
  key : K
  count : Int
  deriving DecidableEq

def Counter.id (row : Counter K) : Nat × K :=
  (row.shard, row.key)

structure Counters (K : Type) where
  rows : List (Counter K)
  unique : (rows.map Counter.id).Nodup

variable {key : K}

namespace Counters

def empty : Counters K :=
  ⟨[], List.nodup_nil⟩

def total (counters : Counters K) (k : K) : Int :=
  (counters.rows.map fun row => if row.key = k then row.count else 0).sum

def bump (shard : Nat) (key : K) (amount : Int) (row : Counter K) : Counter K :=
  if row.id = (shard, key) then { row with count := row.count + amount } else row

variable {rows : List (Counter K)} (ctrs : Counters K) {shard : Nat}

omit [DecidableEq K] in
lemma map_id_of_id {f : Counter K → Counter K}
    (h : ∀ row, (f row).id = row.id) : (rows.map f).map Counter.id = rows.map Counter.id := by
  simp [h]

lemma bump_id (shard : Nat) (key : K) (amt : Int) (row : Counter K) :
    (bump shard key amt row).id = row.id := by
  unfold bump
  split <;> rfl

def update (counters : Counters K) (shard : Nat) (key : K) (amount : Int) : Counters K where
  rows := counters.rows.map (bump shard key amount)
  unique := by
    rw [map_id_of_id (bump_id shard key amount)]
    exact counters.unique

def updated (counters : Counters K) (shard : Nat) (key : K) : Nat :=
  counters.rows.countP fun row => row.id = (shard, key)

def getOrCreate (counters : Counters K) (shard : Nat) (key : K) : Counters K :=
  if h : (shard, key) ∈ counters.rows.map Counter.id then
    counters
  else
    { rows := counters.rows ++ [{ shard := shard, key := key, count := 0 }]
      unique := by
        rw [List.map_append, List.nodup_append']
        exact ⟨counters.unique, by simp, by simpa [List.disjoint_singleton, Counter.id] using h⟩ }

def add (counters : Counters K) (shard : Nat) (key : K) (amount : Int) : Counters K :=
  if counters.updated shard key = 0 then
    ((counters.update shard key amount).getOrCreate shard key).update shard key amount
  else
    counters.update shard key amount

lemma updated_eq_zero {ctrs : Counters K} :
    ctrs.updated shard key = 0 ↔ (shard, key) ∉ ctrs.rows.map Counter.id := by
  simp [updated, countP_eq_zero]

lemma map_bump_of_notMem (h : (shard, key) ∉ rows.map Counter.id) (amt : Int) :
    rows.map (bump shard key amt) = rows := by
  induction rows with
  | nil => rfl
  | cons row rows ih =>
    rw [map_cons, mem_cons, not_or] at h
    rw [map_cons, ih h.2, bump, if_neg (Ne.symm h.1)]

lemma sum_map_bump (huni : (rows.map Counter.id).Nodup) (h : (shard, key) ∈ rows.map Counter.id)
    (amt : Int) (k : K) :
    ((rows.map (bump shard key amt)).map fun row => if row.key = k then row.count else 0).sum =
    (rows.map fun row => if row.key = k then row.count else 0).sum + if key = k then amt else 0 := by
  induction rows with
  | nil => cases h
  | cons row rows ih =>
    rw [map_cons, nodup_cons] at huni
    rw [map_cons, mem_cons] at h
    rcases h with hrow | hrows
    · -- the row is the first one, and there is no other
      have hres := map_bump_of_notMem (hrow ▸ huni.1) amt
      have hkey : row.key = key := (congrArg Prod.snd hrow).symm
      simp only [map_cons, sum_cons, hres, bump, if_pos hrow.symm, hkey]
      split <;> omega
    · have hne : row.id ≠ (shard, key) := fun heq => huni.1 (heq ▸ hrows)
      simp only [map_cons, sum_cons, ih huni.2 hrows, bump, if_neg hne]
      omega

lemma total_update {ctrs : Counters K} (h : (shard, key) ∈ ctrs.rows.map Counter.id) (amt : Int) (k : K) :
    (ctrs.update shard key amt).total k = ctrs.total k + if key = k then amt else 0 :=
  sum_map_bump ctrs.unique h amt k

lemma total_getOrNew (shard : Nat) (key k : K) : (ctrs.getOrCreate shard key).total k = ctrs.total k := by
  unfold getOrCreate
  split
  · rfl
  · simp [total]

lemma mem_getOrNew (shard : Nat) (key : K) :
    (shard, key) ∈ (ctrs.getOrCreate shard key).rows.map Counter.id := by
  unfold getOrCreate
  split
  · rename_i h
    exact h
  · simp [Counter.id]

lemma total_add (shard : Nat) (key : K) (amt : Int) (k : K) :
    (ctrs.add shard key amt).total k = ctrs.total k + if key = k then amt else 0 := by
  unfold add
  split
  · rename_i hzer
    have hrow : (ctrs.update shard key amt).rows = ctrs.rows :=
      map_bump_of_notMem (updated_eq_zero.1 hzer) amt
    have hsam : (ctrs.update shard key amt).total k = ctrs.total k := by rw [total, hrow, total]
    rw [total_update (mem_getOrNew _ _ _), total_getOrNew, hsam]
  · rename_i hsom
    exact total_update (not_not.1 fun h => hsom (updated_eq_zero.2 h)) amt k

def addAll (counters : Counters K) (shard : Nat) (items : List (K × Int)) : Counters K :=
  items.foldl (fun counters item => counters.add shard item.1 item.2) counters

lemma total_addAll (shard : Nat) (k : K) : ∀ (items : List (K × Int)) (ctrs : Counters K),
    (ctrs.addAll shard items).total k = ctrs.total k + balance items k
  | [], ctrs => by simp [addAll, balance]
  | item :: items, ctrs => by
      have hres := total_addAll shard k items (ctrs.add shard item.1 item.2)
      have hfir := total_add ctrs shard item.1 item.2 k
      have hbal : balance (item :: items) k = (if item.1 = k then item.2 else 0) + balance items
        k := by simp [balance]
      change ((ctrs.add shard item.1 item.2).addAll shard items).total k = _
      omega

def recount (shard : Nat) (keys : List K) (count : K → Int) : Counters K where
  rows := keys.dedup.map fun key => { shard := shard, key := key, count := count key }
  unique := by
    rw [List.map_map]
    refine (List.nodup_dedup keys).map fun a b hab => ?_
    exact congrArg Prod.snd hab

lemma total_recount (shard : Nat) (keys : List K) (count : K → Int) (k : K) :
    (recount shard keys count).total k = if k ∈ keys then count k else 0 := by
  have hsum : (keys.dedup.map fun key => if key = k then count key else 0).sum =
      if k ∈ keys then count k else 0 := by
    rw [← sum_toFinset _ (nodup_dedup keys), Finset.sum_ite_eq']
    simp
  simpa [total, recount, Function.comp_def] using hsum

end Counters

/-! ## Populations -/

def population (n : Nat) (key : Nat → K) (k : K) : Nat :=
  (List.range n).countP fun i => key i = k

section Population

variable {n m : Nat} {key key' : Nat → K}

lemma population_eq_sum (n : Nat) (key : Nat → K) (k : K) :
    (population n key k : Int) = ∑ i ∈ Finset.range n, if key i = k then 1 else 0 := by
  rw [population, Finset.sum_boole, Finset.card_def, Finset.filter_val, Finset.range_val,
    ← Multiset.countP_eq_card_filter]
  rfl

lemma population_congr (h : ∀ i < n, key' i = key i) (k : K) :
    population n key' k = population n key k := by
  refine countP_congr fun i hi => ?_
  rw [h i (mem_range.1 hi)]

lemma population_move {a b : K} (selected : Nat → Bool) (k : K) {n : Nat}
    (hsel : ∀ i < n, selected i = true → key i = a ∧ key' i = b)
    (hoth : ∀ i < n, selected i = false → key' i = key i) : (population n key' k : Int) =
      population n key k +
    (if b = k then ((range n).countP selected : Int) else 0) -
    (if a = k then ((range n).countP selected : Int) else 0) := by
  have hcount (c : K) : (if c = k then ((range n).countP selected : Int) else 0) =
      ∑ i ∈ Finset.range n, if selected i then if c = k then 1 else 0 else 0 := by
    have hall := population_eq_sum n selected true
    split
    · simpa [population] using hall
    · simp
  rw [hcount, hcount, population_eq_sum, population_eq_sum, ← Finset.sum_add_distrib,
    ← Finset.sum_sub_distrib]
  refine Finset.sum_congr rfl fun i hi => ?_
  cases hi' : selected i with
  | true =>
    obtain ⟨ha, hb⟩ := hsel i (Finset.mem_range.1 hi) hi'
    simp [ha, hb]
  | false => simp [hoth i (Finset.mem_range.1 hi) hi']

lemma population_update {i : Nat} (hi : i < n) (hoth : ∀ j < n, j ≠ i → key' j = key j) (k : K) :
    (population n key' k : Int) = population n key k +
    (if key' i = k then 1 else 0) - (if key i = k then 1 else 0) := by
  have hone : (range n).countP (· == i) = 1 := count_eq_one_of_mem nodup_range (mem_range.2 hi)
  have hmov := population_move (n := n) (a := key i) (b := key' i) (· == i) k (by
      intro j _ hj
      obtain rfl := beq_iff_eq.1 hj
      exact ⟨rfl, rfl⟩)
    (fun j hj hne => hoth j hj (beq_eq_false_iff_ne.1 hne))
  rw [hmov, hone]
  rfl

lemma population_append {a : K} (k : K) (hold : ∀ i < n, key' i = key i)
    (hnew : ∀ i, n ≤ i → i < n + m → key' i = a) :
    (population (n + m) key' k : Int) = population n key k + if a = k then (m : Int) else 0 := by
  have hlast : ∀ i ∈ Finset.range m, (if key' (n + i) = k then 1 else 0) = if a =
    k then (1 : Int) else 0 := by
    intro i hi
    rw [hnew (n + i) (Nat.le_add_right n i) (Nat.add_lt_add_left (Finset.mem_range.1 hi) n)]
  rw [population_eq_sum, Finset.sum_range_add, ← population_eq_sum, population_congr hold,
    Finset.sum_congr rfl hlast]
  simp

end Population

end Toolchain.Lib
