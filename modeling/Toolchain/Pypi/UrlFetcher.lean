import Mathlib.Data.List.MinMax
import Toolchain.Lib.Run
import Toolchain.Lib.Utf8

/-!
# Pypi.UrlFetcher — the content that is stored for a distribution

The digest in the URL of a distribution is compared with nothing: no one calls the method that would do so.

Models `crawler/base/url_fetcher.py`, `crawler/pypi/workers/pypi_url_fetcher.py` and
`django/webresource/models.py`.
-/

namespace Toolchain.Pypi

open Lib List

/-- A URL, with the digest of its fragment. -/
structure Url (H : Type) where
  (origin path query : Text)
  sha256 : Option H
  deriving DecidableEq

/-- A complete response.  A header `content-length` may be absent, or no number. -/
structure Response where
  statusCode : Nat
  contentType : Option Text
  contentLength : Option (Option Int)
  content : Bytes

/-- One execution of the worker; no response stands for a `RequestException`. -/
structure FetchURL (H : Type) where
  url : Url H
  lastHttpStatus : Option Nat
  now : Nat
  response : Option Response

structure WebResource (H : Type) where
  url : Url H
  sha256Hexdigest : H
  freshness : Nat
  contentUrl : Text
  content : Option Bytes

structure FetcherSettings (H : Type) where
  sha256 : Bytes → H
  inlineSmallText : Bool
  maxInlineTextSize : Int
  keyPrefix : Text

abbrev Bucket := Text → Option Bytes

structure WebStore (H : Type) where
  rows : List (WebResource H)
  objects : Bucket

inductive WorkError
  | transient | permanent | unexpected

variable {H : Type} [DecidableEq H] (conf : FetcherSettings H) (self : WebStore H) (work : FetchURL H)

def pythonHostedUrl : Text := "https://files.pythonhosted.org/packages/".toList

/-- `get_expected_hash`, which only `verify_hash` uses.  The host is followed by a directory, a file and
the digest; `extract_digest` raises `ValueError` otherwise. -/
def getExpectedHash (url : Url H) : Except WorkError (Option H) :=
  let text := url.origin ++ url.path ++ url.query
  if pythonHostedUrl <+: text then
    if '/' ∈ text.drop pythonHostedUrl.length then
      match url.sha256 with
      | some digest => .ok (some digest)
      | none => .error .unexpected
    else .error .unexpected
  else .ok none

def contentKey (url : Url H) : Text :=
  conf.keyPrefix ++ "/webresource/".toList ++ if url.path.head? = some '/' then url.path.tail else url.path

def WebResource.contentReader (objects : Bucket) (row : WebResource H) : Option Bytes :=
  match row.content with
  | some content => some content
  | none => if row.contentUrl = [] then none else objects row.contentUrl

namespace WebStore

def latestByUrl (url : Url H) : Option (WebResource H) :=
  (self.rows.filter fun row => row.url = url).argmax WebResource.freshness

/-- `should_inline`. -/
def shouldInline (contentType : Text) (contentLength : Int) : Prop :=
  conf.inlineSmallText ∧ "text/".toList <+: contentType ∧ 0 ≤ contentLength ∧
    contentLength ≤ conf.maxInlineTextSize

instance (contentType : Text) (contentLength : Int) :
    Decidable (shouldInline conf contentType contentLength) :=
  inferInstanceAs (Decidable (_ ∧ _ ∧ _ ∧ _))

/-- The objects after the response, the content if it is inlined, and the URL of the content otherwise. -/
def processResponse (response : Response) : Except WorkError (Bucket × Option Bytes × Text) :=
  if 400 ≤ response.statusCode then
    if response.statusCode = 404 ∧ work.lastHttpStatus ≠ some 404 then .error .transient
    else .error (if response.statusCode < 500 then .permanent else .transient)
  else
    match response.contentType, response.contentLength.getD (some (-1)) with
    | some contentType, some contentLength =>
      if shouldInline conf contentType contentLength then
        .ok (self.objects, some response.content, [])
      else
        let key := contentKey conf work.url
        .ok (Function.update self.objects key (some response.content), none, key)
    | _, _ => .error .unexpected

/-- The objects afterwards, and the row to save with whether it is a new one. -/
def doWork : Bucket × Except WorkError (WebResource H × Bool) :=
  match work.response with
  | none => (self.objects, .error .transient)
  | some response =>
    match if response.statusCode = 304 then self.latestByUrl work.url else none with
    | some row => (self.objects, .ok ({ row with freshness := work.now }, false))
    | none =>
      match self.processResponse conf work response with
      | .error error => (self.objects, .error error)
      | .ok (objects, content, contentUrl) =>
        let hash := conf.sha256 response.content
        match (self.latestByUrl work.url).filter fun row => row.sha256Hexdigest = hash with
        | some row => (objects, .ok ({ row with freshness := work.now }, false))
        | none => (objects, .ok (⟨work.url, hash, work.now, contentUrl, content⟩, true))

def isVersion (row other : WebResource H) : Bool :=
  other.url = row.url ∧ other.sha256Hexdigest = row.sha256Hexdigest

/-- `on_success` saves the row; a new one must not have the URL and the hash of another. -/
def onSuccess (row : WebResource H) (isNew : Bool) : WebStore H × Except WorkError (WebResource H) :=
  if isNew then
    if self.rows.any (isVersion row) then (self, .error .unexpected)
    else ({ self with rows := self.rows ++ [row] }, .ok row)
  else ({ self with rows := self.rows.map fun other => if isVersion row other then row else other },
    .ok row)

def execute : WebStore H × Except WorkError (WebResource H) :=
  let stored := { self with objects := (self.doWork conf work).1 }
  match (self.doWork conf work).2 with
  | .error error => (stored, .error error)
  | .ok (row, isNew) => stored.onSuccess row isNew

def next : WebStore H := (self.execute conf work).1

/-- If the fetch of a distribution succeeds, its row and what the row reads have the digest of the URL. -/
def Verifies : Prop :=
  ∀ digest row, getExpectedHash work.url = .ok (some digest) → (self.execute conf work).2 = .ok row →
    row.sha256Hexdigest = digest ∧
      (row.contentReader (self.next conf work).objects).map conf.sha256 = some digest

/-- No error status, and headers that can be read. -/
def Accepts (response : Response) (contentType : Text) (contentLength : Int) : Prop :=
  response.statusCode < 400 ∧ response.contentType = some contentType ∧
    response.contentLength.getD (some (-1)) = some contentLength

/-- The latest row is kept and nothing uploaded: the server says so, or sends small text that has the
hash of the row. -/
def KeptBy (old : WebResource H) (response : Response) : Prop :=
  response.statusCode = 304 ∨
    ∃ contentType contentLength, Accepts response contentType contentLength ∧
      shouldInline conf contentType contentLength ∧ old.sha256Hexdigest = conf.sha256 response.content

/-- Where the response keeps a row whose content is not inlined, the object under the key of the URL has
the digest of the URL; where it is accepted otherwise, what was sent has it. -/
def Authentic : Prop :=
  ∀ digest response, getExpectedHash work.url = .ok (some digest) → work.response = some response →
    (∀ old, self.latestByUrl work.url = some old → KeptBy conf old response → old.content = none →
      (self.objects (contentKey conf work.url)).map conf.sha256 = some digest) ∧
    ((∀ old, self.latestByUrl work.url = some old → ¬KeptBy conf old response) →
      ∀ contentType contentLength, Accepts response contentType contentLength →
        conf.sha256 response.content = digest)

/-- The content of a row is inlined or under the key of its URL. -/
structure Tidy (row : WebResource H) : Prop where
  inlined : ∀ content, row.content = some content → conf.sha256 content = row.sha256Hexdigest
  located : row.content = none → row.contentUrl = contentKey conf row.url

def Sound : Prop :=
  ∀ row ∈ self.rows, Tidy conf row ∧
    ∀ digest, getExpectedHash row.url = .ok (some digest) → row.sha256Hexdigest = digest

variable {conf self work} {row : WebResource H} {objects : Bucket}

omit [DecidableEq H] in
lemma processResponse_cases (response : Response) :
    (∃ error, self.processResponse conf work response = .error error ∧
      ∀ contentType contentLength, ¬Accepts response contentType contentLength) ∨
    ∃ contentType contentLength, Accepts response contentType contentLength ∧
      self.processResponse conf work response =
        .ok (if shouldInline conf contentType contentLength then
            (self.objects, some response.content, [])
          else (Function.update self.objects (contentKey conf work.url) (some response.content), none,
            contentKey conf work.url)) := by
  unfold processResponse
  split
  · rename_i hstatus
    left
    split <;> exact ⟨_, rfl, fun _ _ h => absurd h.1 (Nat.not_lt.2 hstatus)⟩
  rename_i hstatus
  split
  · rename_i contentType contentLength htype hlength
    refine .inr ⟨contentType, contentLength, ⟨Nat.lt_of_not_le hstatus, htype, hlength⟩, ?_⟩
    split <;> rfl
  · rename_i hnone
    exact .inl ⟨_, rfl, fun contentType contentLength h => hnone _ _ h.2.1 h.2.2⟩

omit [DecidableEq H] in
lemma Tidy.reads (h : Tidy conf row) {content : Bytes} (hash : row.sha256Hexdigest = conf.sha256 content) :
    (row.contentReader (Function.update objects (contentKey conf row.url) (some content))).map
      conf.sha256 =
    some row.sha256Hexdigest := by
  unfold WebResource.contentReader
  cases hcon : row.content with
  | some text => exact congrArg some (h.inlined text hcon)
  | none => simp [h.located hcon, contentKey, hash]

lemma latestByUrl_mem {old : WebResource H} (h : self.latestByUrl work.url = some old) :
    old ∈ self.rows ∧ old.url = work.url := by
  simpa using argmax_mem h

/-- What a fetch comes to: an error; the latest row, with nothing uploaded; or a row that reads what was
received. -/
inductive Fetched (conf : FetcherSettings H) (self : WebStore H) (work : FetchURL H) :
    Bucket × Except WorkError (WebResource H × Bool) → Prop
  | failed {error : WorkError} (hrejects : ∀ response, work.response = some response →
      (∀ old, self.latestByUrl work.url = some old → ¬KeptBy conf old response) ∧
        ∀ contentType contentLength, ¬Accepts response contentType contentLength) :
      Fetched conf self work (self.objects, .error error)
  | kept {response : Response} {old : WebResource H} (hresponse : work.response = some response)
      (hold : self.latestByUrl work.url = some old) (hkept : KeptBy conf old response) :
      Fetched conf self work (self.objects, .ok ({ old with freshness := work.now }, false))
  | received {response : Response} {contentType : Text} {contentLength : Int} {objects : Bucket}
      {row : WebResource H} {isNew : Bool} (hresponse : work.response = some response)
      (haccepts : Accepts response contentType contentLength)
      (hnot : ∀ old, self.latestByUrl work.url = some old → ¬KeptBy conf old response)
      (hurl : row.url = work.url) (htidy : Tidy conf row)
      (hhash : row.sha256Hexdigest = conf.sha256 response.content)
      (hreads : (row.contentReader objects).map conf.sha256 = some row.sha256Hexdigest) :
      Fetched conf self work (objects, .ok (row, isNew))

omit [DecidableEq H] in
lemma not_keptBy {old : WebResource H} {response : Response} {contentType : Text}
    {contentLength : Int} (hstatus : response.statusCode ≠ 304)
    (haccepts : Accepts response contentType contentLength)
    (h : shouldInline conf contentType contentLength →
      old.sha256Hexdigest ≠ conf.sha256 response.content) :
    ¬KeptBy conf old response := by
  rintro (heq | ⟨otherType, otherLength, hother, hinline, hhash⟩)
  · exact hstatus heq
  · obtain rfl := Option.some.inj (haccepts.2.1.symm.trans hother.2.1)
    obtain rfl := Option.some.inj (haccepts.2.2.symm.trans hother.2.2)
    exact h hinline hhash

lemma doWork_spec (hsou : self.Sound conf) : Fetched conf self work (self.doWork conf work) := by
  unfold doWork
  cases hresponse : work.response with
  | none => exact .failed (by simp [hresponse])
  | some response =>
    simp only
    split
    · rename_i old hold
      obtain ⟨hstatus, hold⟩ : response.statusCode = 304 ∧ self.latestByUrl work.url = some old := by
        simpa using hold
      exact .kept hresponse hold (.inl hstatus)
    rename_i hnone
    have hstatus (old) (hold : self.latestByUrl work.url = some old) : response.statusCode ≠ 304 := by
      intro heq
      simp [heq, hold] at hnone
    obtain ⟨error, herror, hrejects⟩ | ⟨contentType, contentLength, haccepts, hok⟩ :=
      @processResponse_cases _ conf self work response
    · rw [herror]
      refine .failed fun other hother => ?_
      obtain rfl := Option.some.inj (hresponse.symm.trans hother)
      refine ⟨fun old hold => ?_, hrejects⟩
      rintro (heq | ⟨contentType, contentLength, haccepts, -⟩)
      · exact hstatus old hold heq
      · exact hrejects _ _ haccepts
    rw [hok]
    have hnot (hfresh : ∀ old, self.latestByUrl work.url = some old →
        shouldInline conf contentType contentLength → old.sha256Hexdigest ≠ conf.sha256 response.content)
        (old) (hold : self.latestByUrl work.url = some old) : ¬KeptBy conf old response :=
      not_keptBy (hstatus old hold) haccepts (hfresh old hold)
    cases hold : (self.latestByUrl work.url).filter
        fun row => row.sha256Hexdigest = conf.sha256 response.content with
    | some old =>
      obtain ⟨hlatest, hhash⟩ := Option.filter_eq_some_iff.1 hold
      have hhash := of_decide_eq_true hhash
      by_cases hinline : shouldInline conf contentType contentLength
      · simp only [if_pos hinline]
        exact .kept hresponse hlatest (.inr ⟨_, _, haccepts, hinline, hhash⟩)
      · obtain ⟨hmem, hurl⟩ := latestByUrl_mem hlatest
        have htidy : Tidy conf { old with freshness := work.now } :=
          ⟨(hsou old hmem).1.inlined, (hsou old hmem).1.located⟩
        simp only [if_neg hinline]
        refine .received hresponse haccepts (hnot fun _ _ h => absurd h hinline) hurl htidy hhash ?_
        rw [← hurl]
        exact htidy.reads hhash
    | none =>
      have hfresh := hnot fun old hlatest _ hhash => by simp [hlatest, hhash] at hold
      by_cases hinline : shouldInline conf contentType contentLength
      · simp only [if_pos hinline]
        exact .received hresponse haccepts hfresh rfl ⟨fun _ h => by cases h; rfl, by simp⟩ rfl rfl
      · have htidy : Tidy conf ⟨work.url, conf.sha256 response.content, work.now,
            contentKey conf work.url, none⟩ := ⟨by simp, fun _ => rfl⟩
        simp only [if_neg hinline]
        exact .received hresponse haccepts hfresh rfl htidy rfl (htidy.reads rfl)

/-- A fetch that comes to a row succeeds, unless another row has its URL and hash. -/
lemma execute_cases : (self.next conf work).objects = (self.doWork conf work).1 ∧
    ((∃ error, (self.execute conf work).2 = .error error ∧ (self.next conf work).rows = self.rows ∧
      ∀ row isNew, (self.doWork conf work).2 = .ok (row, isNew) →
        isNew = true ∧ ∃ other ∈ self.rows, isVersion row other = true) ∨
    ∃ row isNew, (self.doWork conf work).2 = .ok (row, isNew) ∧ (self.execute conf work).2 = .ok row ∧
      ∀ other ∈ (self.next conf work).rows, other ∈ self.rows ∨ other = row) := by
  unfold next execute
  split
  · rename_i herror
    exact ⟨rfl, .inl ⟨_, rfl, rfl, by simp [herror]⟩⟩
  rename_i row isNew hok
  unfold onSuccess
  split
  · rename_i hnew
    dsimp only
    split
    · rename_i hother
      refine ⟨rfl, .inl ⟨_, rfl, rfl, fun _ _ heq => ?_⟩⟩
      cases hok.symm.trans heq
      exact ⟨hnew, any_eq_true.1 hother⟩
    · exact ⟨rfl, .inr ⟨row, isNew, hok, rfl, by simp⟩⟩
  · refine ⟨rfl, .inr ⟨row, isNew, hok, rfl, fun other hother => ?_⟩⟩
    obtain ⟨old, hold, rfl⟩ := mem_map.1 hother
    split
    · exact .inr rfl
    · exact .inl hold

lemma contentReader_of_kept (hsou : self.Sound conf) {old : WebResource H} {digest : H}
    (hold : self.latestByUrl work.url = some old)
      (hexpected : getExpectedHash work.url = .ok (some digest)) :
    (old.contentReader self.objects).map conf.sha256 = some digest ↔
      (old.content = none → (self.objects (contentKey conf work.url)).map conf.sha256 = some digest) := by
  obtain ⟨hmem, hurl⟩ := latestByUrl_mem hold
  obtain ⟨htidy, hdigest⟩ := hsou old hmem
  unfold WebResource.contentReader
  cases hcontent : old.content with
  | some content => simp [htidy.inlined content hcontent, hdigest digest (hurl ▸ hexpected)]
  | none => simp [htidy.located hcontent, hurl, contentKey]

lemma verifies_iff (hsou : self.Sound conf) : self.Verifies conf work ↔ self.Authentic conf work := by
  obtain ⟨hobjects, hcases⟩ := @execute_cases _ _ conf self work
  have hspec := @doWork_spec _ _ conf self work hsou
  unfold Verifies Authentic
  rw [hobjects]
  generalize hdone : self.doWork conf work = done at hspec hcases
  cases hspec with
  | failed hrejects =>
    obtain ⟨error, herror, -⟩ | ⟨row, isNew, hok, -⟩ := hcases
    · refine ⟨fun _ digest response _ hresponse => ?_, fun _ digest row _ hok => ?_⟩
      · obtain ⟨hnot, hnone⟩ := hrejects response hresponse
        exact ⟨fun old hold hkept => absurd hkept (hnot old hold), fun _ _ _ h => absurd h (hnone _ _)⟩
      · cases herror.symm.trans hok
    · cases hok
  | @kept response old hresponse hold hkept =>
    obtain ⟨error, -, -, hblocked⟩ | ⟨row, isNew, hok, hrow, -⟩ := hcases
    · cases (hblocked _ _ rfl).1
    cases hok
    obtain ⟨hmem, hurl⟩ := latestByUrl_mem hold
    constructor
    · intro h digest other hexpected hother
      cases hresponse.symm.trans hother
      refine ⟨fun old' hold' _ => ?_, fun hnot => absurd hkept (hnot old hold)⟩
      cases hold.symm.trans hold'
      exact (contentReader_of_kept hsou hold hexpected).1 (h digest _ hexpected hrow).2
    · intro h digest row hexpected hok
      cases hrow.symm.trans hok
      exact ⟨(hsou old hmem).2 digest (hurl ▸ hexpected), (contentReader_of_kept hsou hold hexpected).2
        ((h digest response hexpected hresponse).1 old hold hkept)⟩
  | @received response contentType contentLength objects row isNew hresponse haccepts hnot hurl _ hhash
      hreads =>
    constructor
    · intro h digest other hexpected hother
      cases hresponse.symm.trans hother
      refine ⟨fun old hold hkept => absurd hkept (hnot old hold), fun _ _ _ _ => ?_⟩
      obtain ⟨error, -, -, hblocked⟩ | ⟨saved, _, hok, hrow, -⟩ := hcases
      · -- another row has the URL and the hash, and so has the digest
        obtain ⟨-, old, hold, hversion⟩ := hblocked row isNew rfl
        obtain ⟨hsame, hsum⟩ : old.url = row.url ∧ old.sha256Hexdigest = row.sha256Hexdigest := by
          simpa [isVersion] using hversion
        rw [← hhash, ← hsum]
        exact (hsou old hold).2 digest (by rwa [hsame, hurl])
      · cases hok
        exact hhash ▸ (h digest row hexpected hrow).1
    · intro h digest saved hexpected hok
      obtain ⟨error, herror, -⟩ | ⟨_, _, hdo, hrow, -⟩ := hcases
      · cases herror.symm.trans hok
      cases hdo
      cases hrow.symm.trans hok
      have hsent := (h digest response hexpected hresponse).2 hnot _ _ haccepts
      rw [hreads, hhash, hsent]
      exact ⟨rfl, rfl⟩

lemma Sound.next (hsou : self.Sound conf) (hver : self.Verifies conf work) :
    (self.next conf work).Sound conf := by
  obtain ⟨-, ⟨error, -, hrows, -⟩ | ⟨row, isNew, hdo, hok, hrows⟩⟩ := @execute_cases _ _ conf self work
  · rwa [Sound, hrows]
  intro other hother
  obtain hold | rfl := hrows other hother
  · exact hsou other hold
  have hrow : Tidy conf other ∧ other.url = work.url := by
    have hspec := @doWork_spec _ _ conf self work hsou
    generalize self.doWork conf work = done at hspec hdo
    cases hspec with
    | failed => cases hdo
    | kept _ hold =>
      obtain ⟨hmem, hurl⟩ := latestByUrl_mem hold
      cases hdo
      exact ⟨⟨(hsou _ hmem).1.inlined, (hsou _ hmem).1.located⟩, hurl⟩
    | received _ _ _ hurl htidy =>
      cases hdo
      exact ⟨htidy, hurl⟩
  exact ⟨hrow.1, fun digest hexpected => (hver digest other (hrow.2 ▸ hexpected) hok).1⟩

/-- The rows stay sound as long as every fetch is verified. -/
lemma guarded_iff (works : List (FetchURL H)) (hsou : self.Sound conf) :
    Guarded (next conf) (Verifies conf) self works ↔ Guarded (next conf) (Authentic conf) self works := by
  induction works generalizing self with
  | nil => exact Iff.rfl
  | cons work works ih =>
    calc self.Verifies conf work ∧ Guarded (next conf) (Verifies conf) (self.next conf work) works
      _ ↔ self.Verifies conf work ∧ Guarded (next conf) (Authentic conf) (self.next conf work) works :=
        and_congr_right fun hver => ih (hsou.next hver)
      _ ↔ _ := and_congr_left' (verifies_iff hsou)

/-- The rows of distributions have the digests of their URLs just if every server sends the content with the
digest, and what is kept in the bucket still has it. -/
theorem verified_iff_authentic (conf : FetcherSettings H) (works : List (FetchURL H)) :
    Guarded (next conf) (Verifies conf) ⟨[], fun _ => none⟩ works ↔
    Guarded (next conf) (Authentic conf) ⟨[], fun _ => none⟩ works :=
  guarded_iff works (by simp [Sound])

/-- A distribution is fetched with content that its URL does not name. -/
theorem other_content_succeeds :
    ¬Guarded (next ⟨id, false, 0, []⟩) (Verifies ⟨id, false, 0, []⟩) ⟨[], fun _ => none⟩
      [⟨⟨"https://files.pythonhosted.org".toList, "/packages/ab/a.whl".toList, [], some [1]⟩, none, 0,
        some ⟨200, some "application/octet-stream".toList, none, [2]⟩⟩] := by
  intro h
  have hrow := h.1 [1] ⟨_, [2], _, _, _⟩ rfl rfl
  exact absurd hrow.1 (by decide)

end WebStore

end Toolchain.Pypi
