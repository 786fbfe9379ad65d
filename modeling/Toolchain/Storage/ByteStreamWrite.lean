import Toolchain.Storage.Api

/-!
# ByteStreamWrite — what a write RPC commits

`observed` is any driver with a log of its calls.  `commit` is called at most once, after messages up to
the first with `finish_write` have come in order and to the size of the digest, and what was written is
their data, as long as fewer than `2 ^ 63` bytes come.  If the blob exists the answer is that size as a
signed number, negative from `2 ^ 63` on.
-/

namespace Toolchain.Storage

open Lib List

variable {H : Type}

/-! ## Observed calls -/

/-- A call of a driver by a write, or the answer to the call before. -/
inductive WriteCall (H : Type)
  | begin
  | write (batch : Bytes)
  | commit
  | answer (result : Except (StreamingWriteError H) Unit)

namespace WriteCall

def isCommit : WriteCall H → Bool
  | .commit => true
  | _ => false

def batch? : WriteCall H → Option Bytes
  | .write batch => some batch
  | _ => none

def commits (log : List (WriteCall H)) : Nat := log.countP isCommit

def written (log : List (WriteCall H)) : Bytes := (log.filterMap batch?).flatten

def logged {σ α : Type} (call : WriteCall H) (answer : α → Except (StreamingWriteError H) Unit)
    (future : Future σ α) : Future (σ × List (WriteCall H)) α :=
  (Future.act fun s : σ × List (WriteCall H) => ((), (s.1, s.2 ++ [call]))).bind fun _ =>
    (future.zoom Lens.fst).bind fun result => .act fun s =>
      (result, (s.1, s.2 ++ [.answer (answer result)]))

lemma ensures_logged {σ α : Type} {call : WriteCall H}
    {ans : α → Except (StreamingWriteError H) Unit} {P : List (WriteCall H) → Prop}
    {s : σ × List (WriteCall H)} (hlog : P s.2) (hcal : P (s.2 ++ [call]))
    (hans : ∀ res, P (s.2 ++ [call, .answer (ans res)])) (fut : Future σ α) :
    (logged call ans fut).Ensures (fun t => P t.2)
      (fun res t => t.2 = s.2 ++ [call, .answer (ans res)]) s := by
  refine ⟨hlog, ?_⟩
  have hrun : (fut.zoom Lens.fst).Ensures (fun t => P t.2) (fun _ t => t.2 = s.2 ++ [call])
    (s.1, s.2 ++ [call]) := by
    refine .zoom Prod.snd (fun _ _ => rfl) ?_ fut
    intro t ht
    exact ⟨ht ▸ hcal, fun _ => ht⟩
  refine hrun.bind ?_
  rintro res ⟨state, log⟩ hP rfl
  refine ⟨hP, ?_⟩
  simp only [append_assoc, cons_append, nil_append]
  exact ⟨hans res, rfl⟩

end WriteCall

def observed (driver : Driver H) : Driver H where
  State := driver.State × List (WriteCall H)
  Attempt := driver.Attempt
  Task := driver.Task
  init := (driver.init, [])
  Visible state := driver.Visible state.1
  findMissingBlobs inst digests := (driver.findMissingBlobs inst digests).zoom Lens.fst
  readBlob inst digest window := (driver.readBlob inst digest window).zoom Lens.fst
  beginWriteBlob inst digest :=
    WriteCall.logged .begin (Except.map fun _ => ()) (driver.beginWriteBlob inst digest)
  write attempt batch := WriteCall.logged (.write batch) Prod.fst (driver.write attempt batch)
  commit attempt := WriteCall.logged .commit id (driver.commit attempt)
  runTask task := (driver.runTask task).zoom Lens.fst

/-! ## What is committed -/

def namedDigest (codec : Codec H) : List (Except Text WriteRequest) → Option (Digest H)
  | .ok message :: _ =>
    match parseWriteResourceName message.resourceName with
    | .error _ => none
    | .ok parsed => Digest.new codec parsed.hash parsed.size
  | _ => none

/-- The bytes of the messages up to the first that finishes the write. -/
def streamed : List (Except Text WriteRequest) → Nat
  | .ok message :: rest => message.data.length + if message.finishWrite then 0 else streamed rest
  | _ => 0

def dataOf (messages : List WriteRequest) : Bytes := (messages.map WriteRequest.data).flatten

def InOrder (messages : List WriteRequest) : Prop :=
  ∀ before message after, messages = before ++ message :: after → message.writeOffset =
    ((dataOf before).length : Int)

/-- The messages up to the first that finishes the write came in order, and their data was written and
has the size of the digest. -/
def Complete (codec : Codec H) (messages : List (Except Text WriteRequest))
    (log : List (WriteCall H)) : Prop :=
  ∃ digest processed last rest, namedDigest codec messages = some digest ∧
    messages = (processed ++ [last]).map .ok ++ rest ∧
    (∀ message ∈ processed, message.finishWrite = false) ∧ last.finishWrite = true ∧
    InOrder (processed ++ [last]) ∧
    (dataOf (processed ++ [last])).length = digest.sizeBytes ∧
    WriteCall.written log = dataOf (processed ++ [last])

/-- The calls of an RPC so far: `commit` at most once, and of a complete write only. -/
structure Sound (codec : Codec H) (messages : List (Except Text WriteRequest))
    (log : List (WriteCall H)) : Prop where
  once : WriteCall.commits log ≤ 1
  complete : 0 < WriteCall.commits log → Complete codec messages log

def CommitSucceeded (log : List (WriteCall H)) : Prop :=
  ∃ before, log = before ++ [.commit, .answer (.ok ())]

/-- The answer of the RPC is the length of what was committed, or the size of a blob of which the
driver said that it exists. -/
def Answers (codec : Codec H) (messages : List (Except Text WriteRequest))
    (log : List (WriteCall H)) (size : Int) : Prop :=
  CommitSucceeded log ∧ size = ((WriteCall.written log).length : Int) ∨
    .answer (.error .alreadyExists) ∈ log ∧
      ∃ digest, namedDigest codec messages = some digest ∧ size = (digest.sizeBytes : Int)

def writePolls (codec : Codec H) (messages : List (Except Text WriteRequest)) (driver : Driver H)
    (s : driver.State) (choices : List Bool) :
    Future (driver.State × List (WriteCall H)) (Except (WriteStatus H) Int) ×
      (driver.State × List (WriteCall H)) :=
  (byteStreamWrite codec (observed driver) messages).polls choices (s, [])

variable {codec : Codec H} {msgs : List (Except Text WriteRequest)} {log : List (WriteCall H)}
  {dig : Digest H}

namespace WriteCall

variable {log : List (WriteCall H)}

@[simp] lemma commits_append (log log' : List (WriteCall H)) :
    commits (log ++ log') = commits log + commits log' :=
  countP_append

@[simp] lemma written_append (log log' : List (WriteCall H)) :
    written (log ++ log') = written log ++ written log' := by
  simp [written]

@[simp] lemma commits_nil : commits ([] : List (WriteCall H)) = 0 := rfl

@[simp] lemma commits_write : commits (write batch :: log) = commits log := by
  simp [commits, isCommit]

@[simp] lemma commits_commit : commits (commit :: log) = commits log + 1 := countP_cons_of_pos rfl

@[simp] lemma commits_answer :
    commits (answer res :: log) = commits log := by
  simp [commits, isCommit]

@[simp] lemma written_nil : written ([] : List (WriteCall H)) = [] := rfl

@[simp] lemma written_write :
    written (write batch :: log) = batch ++ written log := rfl

@[simp] lemma written_commit : written (commit :: log) = written log := rfl

@[simp] lemma written_answer :
    written (answer res :: log) = written log := rfl

end WriteCall

@[simp] lemma dataOf_append (msgs messages' : List WriteRequest) :
    dataOf (msgs ++ messages') = dataOf msgs ++ dataOf messages' := by
  simp [dataOf]

@[simp] lemma dataOf_singleton (msg : WriteRequest) : dataOf [msg] = msg.data := append_nil msg.data

lemma InOrder.concat {done : List WriteRequest} {msg : WriteRequest}
    (h : InOrder done) (hoff : msg.writeOffset = ((dataOf done).length : Int)) :
    InOrder (done ++ [msg]) := by
  intro bef msg' after hspl
  rcases eq_nil_or_concat after with rfl | ⟨after, last, rfl⟩
  · obtain ⟨rfl, hmes⟩ := append_inj' hspl rfl
    cases hmes
    exact hoff
  · rw [concat_eq_append, ← cons_append, ← append_assoc] at hspl
    obtain ⟨hpro, -⟩ := append_inj' hspl rfl
    exact h bef msg' after hpro

lemma sound_of_uncommitted (h : WriteCall.commits log = 0) : Sound codec msgs log where
  once := h ▸ Nat.zero_le 1
  complete hpos := absurd h (Nat.ne_of_gt hpos)

/-! ## The size as a signed number -/

lemma lt_of_namedDigest (h : namedDigest codec msgs = some dig) : dig.sizeBytes < 2 ^ 64 := by
  unfold namedDigest at h
  split at h
  · split at h
    · cases h
    rename_i par hpar
    obtain ⟨hash, -, rfl⟩ := Option.map_eq_some_iff.mp h
    obtain ⟨_, _, _, _, _, _, _, _, hsiz⟩ := parseWrite_eq_ok hpar
    exact parseUsize_lt hsiz
  · cases h

lemma bmod_of_short {size : Int} (hnonneg : 0 ≤ size) (hshort : size < 2 ^ 63) :
    Int.bmod size (2 ^ 64) = size := by
  rw [Int.bmod_def]
  omega

lemma asI64_eq_iff {size : Nat} : asI64 size = (size : Int) ↔ size < 2 ^ 63 := by
  unfold asI64
  rw [Int.bmod_def]
  omega

lemma eq_of_eq_asI64 {len size : Nat} (hsiz : size < 2 ^ 64) (h : (len : Int) = asI64 size) :
    len = size := by
  unfold asI64 at h
  rw [Int.bmod_def] at h
  omega

/-! ## Along the messages -/

section

variable {codec : Codec H} {msgs : List (Except Text WriteRequest)}

structure Writing (messages : List (Except Text WriteRequest)) (processed : List WriteRequest)
    (rest : List (Except Text WriteRequest)) (log : List (WriteCall H)) : Prop where
  split : messages = processed.map .ok ++ rest
  inOrder : InOrder processed
  unfinished : ∀ message ∈ processed, message.finishWrite = false
  written : WriteCall.written log = dataOf processed
  uncommitted : WriteCall.commits log = 0
  short : (dataOf processed).length + streamed rest < 2 ^ 63

def Explains (log : List (WriteCall H)) : Except (StreamingWriteError H) Int → Prop
  | .ok size => CommitSucceeded log ∧ size = ((WriteCall.written log).length : Int)
  | .error .alreadyExists => .answer (.error .alreadyExists) ∈ log
  | .error (.storageError _) => True

lemma explains_error {err : StreamingWriteError H} (h : .answer (.error err) ∈ log) :
    Explains log (.error err) := by
  cases err with
  | alreadyExists => exact h
  | storageError err => trivial

open WriteCall

section

variable {dig : Digest H} (drv : Driver H) (hdig : namedDigest codec msgs = some dig)

include drv hdig

lemma ensures_finishWrite {done : List WriteRequest} {last : WriteRequest}
    {rest : List (Except Text WriteRequest)}
    (hspl : msgs = (done ++ [last]).map .ok ++ rest)
    (hunf : ∀ msg ∈ done, msg.finishWrite = false)
    (hlas : last.finishWrite = true) (hino : InOrder (done ++ [last]))
    {size : Int} (hsiz : size = ((dataOf (done ++ [last])).length : Int))
    {s : (observed drv).State} (hwri : WriteCall.written s.2 = dataOf (done ++ [last]))
    (hunc : WriteCall.commits s.2 = 0) (att : drv.Attempt) :
    (finishWrite (observed drv) dig size att).Ensures
    (fun t => Sound codec msgs t.2) (fun res t => Explains t.2 res) s := by
  have hsou : Sound codec msgs s.2 := sound_of_uncommitted hunc
  unfold finishWrite
  split_ifs with hsig
  · exact ⟨hsou, trivial⟩
  have hlen := eq_of_eq_asI64 (lt_of_namedDigest hdig) (hsiz ▸ not_not.mp hsig)
  -- from the call on, the log has one commit, and what was written stays
  have hcom : ∀ log : List (WriteCall H), commits log = 1 → written log = written s.2 →
    Sound codec msgs log := by
    intro log hcomm hlog
    exact ⟨Nat.le_of_eq hcomm, fun _ =>
      ⟨dig, done, last, rest, hdig, hspl, hunf, hlas, hino, hlen, hlog.trans hwri⟩⟩
  have hcommit : ((observed drv).commit att).Ensures (fun t => Sound codec msgs t.2)
      (fun res t => t.2 = s.2 ++ [.commit, .answer res]) s := by
    refine ensures_logged hsou ?_ ?_ (drv.commit att)
    · exact hcom _ (by simp [hunc]) (by simp)
    · intro res
      exact hcom _ (by simp [hunc]) (by simp)
  refine hcommit.andThen ?_ ?_
  · intro _ t hinv hlog
    refine ⟨hinv, ⟨s.2, hlog⟩, ?_⟩
    rw [hlog, hsiz]
    simp [hwri]
  · intro error t _ hlog
    refine explains_error ?_
    rw [hlog]
    simp

lemma ensures_writeMessages (rest : List (Except Text WriteRequest))
    {proc : List WriteRequest} {s : (observed drv).State}
    (h : Writing msgs proc rest s.2) (att : drv.Attempt) :
    (writeMessages (observed drv) dig rest ((dataOf proc).length : Int) att).Ensures
    (fun t => Sound codec msgs t.2) (fun res t => Explains t.2 res) s := by
  induction rest generalizing proc s att with
  | nil => exact ⟨sound_of_uncommitted h.uncommitted, trivial⟩
  | cons first rest ih =>
    have hsou : Sound codec msgs s.2 := sound_of_uncommitted h.uncommitted
    cases first with
    | error stat => exact ⟨hsou, trivial⟩
    | ok msg =>
      have hspl : msgs = (proc ++ [msg]).map .ok ++ rest := by
        rw [h.split]
        simp
      -- the loop goes on in the same way whether or not there was data to write
      have hnex : InOrder (proc ++ [msg]) → ∀ size : Int, size = ((dataOf (proc ++ [msg])).length : Int) →
          ∀ (t : (observed drv).State),
          written t.2 = dataOf (proc ++ [msg]) →
          commits t.2 = 0 → ∀ att : drv.Attempt,
          (if msg.finishWrite then
            finishWrite (observed drv) dig size att
          else
            writeMessages (observed drv) dig rest size att).Ensures
            (fun t => Sound codec msgs t.2) (fun res t => Explains t.2 res) t := by
        intro hino size hsiz t hwri hunc att
        cases hfin : msg.finishWrite with
        | true =>
          rw [if_pos rfl]
          exact ensures_finishWrite drv hdig hspl h.unfinished hfin hino hsiz hwri hunc att
        | false =>
          rw [if_neg Bool.false_ne_true, hsiz]
          have hshort := h.short
          simp only [streamed, hfin, Bool.false_eq_true, if_false] at hshort
          refine ih ⟨hspl, hino, ?_, hwri, hunc, by simp; omega⟩ att
          intro msg' hmem
          rcases mem_append.mp hmem with hmem | hmem
          · exact h.unfinished msg' hmem
          · rw [mem_singleton.mp hmem, hfin]
      have hsiz : Int.bmod ((dataOf proc).length + msg.data.length : Int) (2 ^ 64) =
          ((dataOf (proc ++ [msg])).length : Int) := by
        have hshort := h.short
        simp only [streamed] at hshort
        rw [bmod_of_short (by omega) (by omega)]
        simp
      simp only [writeMessages]
      by_cases hoff : msg.writeOffset = ((dataOf proc).length : Int)
      case neg =>
        rw [if_pos hoff]
        exact ⟨hsou, trivial⟩
      case pos =>
        rw [if_neg (not_not.mpr hoff)]
        have hino := h.inOrder.concat hoff
        by_cases hemp : msg.data.isEmpty = true
        · rw [if_pos hemp]
          refine hnex hino _ hsiz s ?_ h.uncommitted att
          rw [h.written, dataOf_append, dataOf_singleton, isEmpty_iff.mp hemp, append_nil]
        rw [if_neg hemp]
        have hwrit : ((observed drv).write att msg.data).Ensures (fun t => Sound codec msgs t.2)
            (fun res t => t.2 = s.2 ++ [.write msg.data, .answer res.1]) s := by
          refine ensures_logged hsou ?_ ?_ (drv.write att msg.data)
          · exact sound_of_uncommitted (by simp [h.uncommitted])
          · intro res
            exact sound_of_uncommitted (by simp [h.uncommitted])
        refine hwrit.bind ?_
        rintro ⟨error | done, attempt'⟩ t hinv hlog
        · refine ⟨hinv, explains_error ?_⟩
          rw [hlog]
          simp
        · refine hnex hino _ hsiz t ?_ ?_ attempt'
          · rw [hlog]
            simp [h.written]
          · rw [hlog]
            simp [h.uncommitted]

end

lemma ensures_byteStreamWrite (codec : Codec H) (msgs : List (Except Text WriteRequest))
    (hshort : streamed msgs < 2 ^ 63) (drv : Driver H) (s : drv.State) :
    (byteStreamWrite codec (observed drv) msgs).Ensures (fun t => Sound codec msgs t.2)
    (fun res t => ∀ size, res = .ok size → CommitSucceeded t.2 ∧
      size = ((WriteCall.written t.2).length : Int) ∨
    .answer (.error .alreadyExists) ∈ t.2 ∧ ∃ digest, namedDigest codec msgs = some digest ∧
    size = asI64 digest.sizeBytes) (s, []) := by
  have hsou : Sound codec msgs ([] : List (WriteCall H)) := sound_of_uncommitted rfl
  unfold byteStreamWrite
  split
  · exact ⟨hsou, nofun⟩
  · exact ⟨hsou, nofun⟩
  rename_i msg rest
  split
  · exact ⟨hsou, nofun⟩
  rename_i par hpar
  split
  · exact ⟨hsou, nofun⟩
  rename_i digest hdig
  have hnam : namedDigest codec (.ok msg :: rest) = some digest := by rwa [namedDigest, hpar]
  have hbeg : ((observed drv).beginWriteBlob par.instanceName digest).Ensures
      (fun t => Sound codec (.ok msg :: rest) t.2)
      (fun res t => t.2 = [.begin, .answer (res.map fun _ => ())]) (s, []) := by
    refine ensures_logged hsou ?_ ?_ (drv.beginWriteBlob par.instanceName digest)
    · exact sound_of_uncommitted rfl
    · intro res
      exact sound_of_uncommitted rfl
  have hwri : (((observed drv).beginWriteBlob par.instanceName digest).andThen
      fun attempt => writeMessages (observed drv) digest (.ok msg :: rest) 0 attempt).Ensures
      (fun t => Sound codec (.ok msg :: rest) t.2)
      (fun res t => Explains t.2 res) (s, []) := by
    refine hbeg.andThen ?_ ?_
    · intro attempt t _ hlog
      have hwrit : Writing (.ok msg :: rest) [] (.ok msg :: rest) t.2 := by
        rw [hlog]
        refine ⟨rfl, ?_, nofun, rfl, rfl, by simpa [dataOf] using hshort⟩
        intro bef msg' after hnil
        simp at hnil
      exact ensures_writeMessages drv hnam _ hwrit attempt
    · intro error t _ hlog
      refine explains_error ?_
      rw [hlog]
      simp [Except.map]
  refine hwri.map ?_
  rintro ((_ | error) | size) t - hexp size' hsiz
  · exact .inr ⟨hexp, digest, hnam, (Except.ok.inj hsiz).symm⟩
  · cases hsiz
  · rw [← Except.ok.inj hsiz]
    exact .inl hexp

end

/-! ## Whatever the driver answers -/

def existing [DecidableEq H] : Leaf H where
  checksExistence := true
  overwrites := false
  faults _ := some .alreadyExists

lemma writePolls_existing [DecidableEq H] (h : namedDigest codec msgs = some dig) (s : Blobs H) :
    (writePolls codec msgs existing.driver s [true, true, true]).1 = .ready (.ok (asI64 dig.sizeBytes)) ∧
    (writePolls codec msgs existing.driver s [true, true, true]).2.2 =
      [.begin, .answer (.error .alreadyExists)] := by
  unfold namedDigest at h
  split at h
  · rename_i msg rest
    split at h
    · cases h
    rename_i par hpar
    unfold writePolls
    simp only [byteStreamWrite, hpar, h]
    exact ⟨rfl, rfl⟩
  · cases h

/-- If fewer than `2 ^ 63` bytes come, the calls are sound and the answer is right along every run, with
any driver, exactly if the size named first is one of a signed number. -/
theorem byteStreamWrite_exact_iff (codec : Codec H) (messages : List (Except Text WriteRequest))
    (hshort : streamed messages < 2 ^ 63) :
    (∀ (driver : Driver H) (s : driver.State) (choices : List Bool),
    Sound codec messages (writePolls codec messages driver s choices).2.2 ∧
    ∀ size, (writePolls codec messages driver s choices).1 = .ready (.ok size) →
    Answers codec messages (writePolls codec messages driver s choices).2.2 size) ↔
    ∀ digest, namedDigest codec messages = some digest → digest.sizeBytes < 2 ^ 63 := by
  constructor
  · intro hexa digest hdig
    classical
    -- nothing was committed, so the answer has to be the size itself
    let s : Blobs H := { calls := 0, blobs := [] }
    obtain ⟨hrea, hlog⟩ := writePolls_existing hdig s
    have hans := (hexa existing.driver s [true, true, true]).2 _ hrea
    rw [hlog] at hans
    rcases hans with ⟨⟨bef, hcom⟩, -⟩ | ⟨-, digest', hdigest', hsiz⟩
    · have hlas := congrArg getLast? hcom
      simp at hlas
    · rw [hdig] at hdigest'
      cases hdigest'
      exact asI64_eq_iff.mp hsiz
  · intro hsiz driver s choices
    have hpol := (ensures_byteStreamWrite codec messages hshort driver s).polls choices
    refine ⟨hpol.holds, ?_⟩
    intro size hrea
    rcases hpol.value hrea size rfl with hcomm | ⟨hexi, digest, hdig, hsig⟩
    · exact .inl hcomm
    · exact .inr ⟨hexi, digest, hdig, hsig.trans (asI64_eq_iff.mpr (hsiz digest hdig))⟩

def oneHash : Codec Nat where
  sha256 _ := 7
  parseHash _ := some 7

def twoMessages : List (Except Text WriteRequest) :=
  [.ok { resourceName := "main/uploads/u/blobs/h/3".toList, writeOffset := 0, finishWrite := false
         data := [1, 2] },
    .ok { resourceName := [], writeOffset := 2, finishWrite := true, data := [3] }]

theorem byteStreamWrite_exact_twoMessages :
    streamed twoMessages < 2 ^ 63 ∧ ∀ (driver : Driver Nat) (s : driver.State) (choices : List Bool),
    Sound oneHash twoMessages (writePolls oneHash twoMessages driver s choices).2.2 := by
  refine ⟨by decide, fun driver s choices => ?_⟩
  refine ((byteStreamWrite_exact_iff oneHash twoMessages (by decide)).2 ?_ driver s choices).1
  rintro digest ⟨⟩
  decide

def largestWrite : List (Except Text WriteRequest) :=
  [.ok { resourceName := "main/uploads/u/blobs/h/18446744073709551615".toList, writeOffset := 0,
         finishWrite := true, data := [] }]

theorem byteStreamWrite_negative_size :
    namedDigest oneHash largestWrite = some { hash := 7, sizeBytes := 18446744073709551615 } ∧
    (writePolls oneHash largestWrite existing.driver ({ calls := 0, blobs := [] } : Blobs Nat)
    [true, true, true]).1 = .ready (.ok (-1)) := by
  have hnam : namedDigest oneHash largestWrite =
    some { hash := 7, sizeBytes := 18446744073709551615 } := rfl
  have hsig : asI64 18446744073709551615 = -1 := by decide
  refine ⟨hnam, ?_⟩
  rw [(writePolls_existing hnam _).1, hsig]

end Toolchain.Storage
