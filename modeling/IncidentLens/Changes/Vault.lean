import IncidentLens.Changes.Remote
import IncidentLens.Data.Packed
import IncidentLens.Evidence.Store

/-!
# The encrypted backup vault

A backup is encrypted into a file that is named by the sanitised ids and the hash of the remote path.
What is loaded must decrypt under the key of the vault. The ids are told apart by their files only as far
as sanitising keeps them apart.
-/
namespace IncidentLens.Changes.EncryptedBackupVault
open Data Evidence List

/-- `AESGCM` with the key of the vault: nonce, data and associated data. Decryption that fails
raises an exception with some text. -/
structure Aesgcm where
  encrypt : Bytes → Bytes → Bytes → Bytes
  decrypt : Bytes → Bytes → Bytes → Except String Bytes

/-- How a call of `store` ends. -/
inductive Ending
  -- an exception before the encryption
  | refused
  -- an exception between the encryption and the writing
  | unopened
  -- an exception while the file is written
  | cut (written : ℕ)
  | stored
  deriving DecidableEq

/-- A call of `store` with what the system does; `remotePath` is `str(remote_path)`. -/
structure Call where
  targetId : String
  incidentId : String
  changesetId : String
  remotePath : String
  content : Bytes
  nonce : Bytes
  ending : Ending
  length_nonce : nonce.length = 12
  deriving DecidableEq

def utf8 (text : String) : Bytes := text.toUTF8.data.toList

/-- `json.dumps(metadata, sort_keys=True, separators=(",", ":"))`. -/
def compactJson (metadata : List (String × String)) : String :=
  let members := (metadata.insertionSort fun a b => a.1 ≤ b.1).map fun member =>
    quoteAscii member.1 ++ ':' :: quoteAscii member.2
  String.ofList ('{' :: [','].intercalate members ++ ['}'])

/-- The files of the vault, by directory and name. -/
abbrev Files := List Text × String → Option Bytes

section
variable (sha256 : Bytes → String) (aes : Aesgcm)

namespace Call

def identity (x : Call) : String × String × String × String := (x.targetId, x.incidentId, x.changesetId, x.remotePath)

/-- The directory below the root; `/` leaves out empty segments and dots. -/
def directory (x : Call) : List Text :=
  ([x.targetId, x.incidentId, x.changesetId].map sanitizeSegment).filter fun segment => segment ≠ [] ∧ segment ≠ ['.']

def pathHash (x : Call) : Text := (sha256 (utf8 x.remotePath)).toList.take 16

def location (x : Call) : List Text × String := (x.directory, String.ofList (x.pathHash sha256) ++ ".enc")

def aad (x : Call) : Bytes :=
  utf8 (compactJson [("target_id", x.targetId), ("incident_id", x.incidentId), ("changeset_id", x.changesetId),
    ("remote_path", x.remotePath), ("plaintext_sha256", sha256 x.content)])

/-- The content of the file, unless the associated data is too long. -/
def blob (x : Call) : Option Bytes :=
  (pack (x.aad sha256).length).map fun header =>
    header ++ x.aad sha256 ++ x.nonce ++ aes.encrypt x.nonce x.content (x.aad sha256)

def reference (x : Call) : BackupReference := ⟨x.directory, (x.location sha256).2, sha256 x.content⟩

end Call

def structError : Exc := ⟨.other, "'I' format requires 0 <= number <= 4294967295"⟩

def osError : Exc := ⟨.other, "OSError"⟩

def store (x : Call) (files : Files) : Except Exc BackupReference × Files :=
  if x.ending = .refused then (.error osError, files)
  else match x.blob sha256 aes with
    | none => (.error structError, files)
    | some blob => match x.ending with
      | .stored => (.ok (x.reference sha256), Function.update files (x.location sha256) (some blob))
      | .cut written => (.error osError, Function.update files (x.location sha256) (some (blob.take written)))
      | _ => (.error osError, files)

def integrityError (message : String) : Exc := ⟨.backupIntegrity, message⟩

/-- `load`, once the file is read. -/
def openBlob (blob : Bytes) (expected : String) : Except Exc Bytes :=
  if blob.length < 32 then .error (integrityError "Backup file is too small to contain valid ciphertext")
  else match unpack (blob.take 4) with
    | none => .error ⟨.other, "unpack requires a buffer of 4 bytes"⟩
    | some aadLen =>
      if blob.length < 4 + aadLen + 12 then
        .error (integrityError "Backup file is corrupted: truncated AAD or nonce")
      else
        let aad := (blob.drop 4).take aadLen
        let nonce := (blob.drop (4 + aadLen)).take 12
        match aes.decrypt nonce (blob.drop (4 + aadLen + 12)) aad with
        | .error text => .error (integrityError ("Decryption failed - backup may be tampered: " ++ text))
        | .ok plaintext =>
          if sha256 plaintext = expected then .ok plaintext
          else .error (integrityError ("SHA-256 mismatch: expected " ++ expected ++ ", got " ++ sha256 plaintext))

def load (files : Files) (reference : BackupReference) : Except Exc Bytes :=
  match files (reference.directory, reference.name) with
  | none => .error ⟨.other, "No such file or directory"⟩
  | some blob => openBlob sha256 aes blob reference.sha256

def run (files : Files) (calls : List Call) : Files := calls.foldl (fun files x => (store sha256 aes x files).2) files

/-- The encryption authenticates: what has been encrypted decrypts, and nothing else. The hash, cut to 16
hexadecimal digits, tells the remote paths apart. -/
structure Authenticates (calls : List Call) : Prop where
  tag : ∀ nonce data aad, (aes.encrypt nonce data aad).length = data.length + 16
  decrypts : ∀ x ∈ calls, x.ending ≠ .refused →
    aes.decrypt x.nonce (aes.encrypt x.nonce x.content (x.aad sha256)) (x.aad sha256) = .ok x.content
  authentic : ∀ nonce ciphertext aad data, aes.decrypt nonce ciphertext aad = .ok data →
    ∃ x ∈ calls, x.ending ≠ .refused ∧ x.nonce = nonce ∧ x.aad sha256 = aad ∧ x.content = data ∧
      ciphertext = aes.encrypt nonce data aad
  digits : ∀ data, ∀ c ∈ (sha256 data).toList, c ∈ "0123456789abcdef".toList
  injective : ∀ x ∈ calls, ∀ y ∈ calls, x.pathHash sha256 = y.pathHash sha256 → x.remotePath = y.remotePath

/-- A name of a file or directory in the directory that it is put in. -/
def Proper (segment : Text) : Prop := segment ≠ [] ∧ segment ≠ ['.'] ∧ segment ≠ ['.', '.'] ∧ '/' ∉ segment

/-- Every backup is kept until the same file is backed up again, different ids have different files below the
root, and a file that was not produced for one of the calls is not loaded. -/
structure Keeps (calls : List Call) : Prop where
  loads : ∀ files before x after reference, calls = before ++ x :: after →
    (store sha256 aes x (run sha256 aes files before)).1 = .ok reference → (∀ y ∈ after, y.identity ≠ x.identity) →
      load sha256 aes (run sha256 aes files calls) reference = .ok x.content
  apart : ∀ x ∈ calls, ∀ y ∈ calls, x.location sha256 = y.location sha256 → x.identity = y.identity
  below : ∀ x ∈ calls, (∀ segment ∈ x.directory, Proper segment) ∧ Proper (x.location sha256).2.toList
  rejects : ∀ files reference blob, files (reference.directory, reference.name) = some blob →
    (∀ x ∈ calls, x.ending ≠ .refused → x.blob sha256 aes ≠ some blob) →
      ∃ message, load sha256 aes files reference = .error (integrityError message)

/-- Calls for one remote path with the same sanitised ids, empty ones and dots left out, have the same ids. -/
def Distinguished (calls : List Call) : Prop :=
  ∀ x ∈ calls, ∀ y ∈ calls, x.directory = y.directory → x.remotePath = y.remotePath → x.identity = y.identity

end

/-! ### Segments -/

lemma mem_dots {c : Char} {cs : Text} (h : c ∈ sanitizeSegment.dots cs) : c = '_' ∨ c ∈ cs := by
  induction cs using sanitizeSegment.dots.induct with
  | case1 cs ih =>
    rw [sanitizeSegment.dots, mem_cons, mem_cons] at h
    rcases h with h | h | h
    · exact .inl h
    · exact .inl h
    · exact (ih h).imp_right fun h => mem_cons_of_mem _ (mem_cons_of_mem _ h)
  | case2 c' cs hpair ih =>
    rw [sanitizeSegment.dots.eq_2 _ _ hpair, mem_cons] at h
    rcases h with h | h
    · exact .inr (h ▸ mem_cons_self)
    · exact (ih h).imp_right (mem_cons_of_mem _)
  | case3 => cases h

lemma dots_ne (cs : Text) : sanitizeSegment.dots cs ≠ ['.', '.'] := by
  intro h
  induction cs using sanitizeSegment.dots.induct with
  | case1 cs ih =>
    rw [sanitizeSegment.dots] at h
    exact absurd (cons.inj h).1 (by decide)
  | case2 c cs hpair ih =>
    rw [sanitizeSegment.dots.eq_2 _ _ hpair] at h
    obtain ⟨rfl, hrest⟩ := cons.inj h
    cases cs with
    | nil => cases hrest
    | cons d ds =>
      by_cases hdots : ∃ rest, d :: ds = '.' :: '.' :: rest
      · obtain ⟨rest, hdots⟩ := hdots
        exact hpair ('.' :: rest) rfl hdots
      · rw [sanitizeSegment.dots.eq_2 _ _ (fun rest hd hds => hdots ⟨rest, by rw [hd, hds]⟩)] at hrest
        obtain ⟨rfl, -⟩ := cons.inj hrest
        exact hpair ds rfl rfl
  | case3 => cases h

lemma slash_not_mem_sanitizeSegment (segment : String) : '/' ∉ sanitizeSegment segment := by
  intro h
  obtain ⟨c, hc, hslash⟩ := mem_map.mp h
  have hceq : c = '/' := by
    split_ifs at hslash with hback
    · exact absurd hslash (by decide)
    · exact hslash
  rw [hceq] at hc
  rcases mem_dots hc with hc | hc
  · exact absurd hc (by decide)
  · obtain ⟨d, -, hd⟩ := mem_map.mp hc
    split_ifs at hd with hslash'
    · exact absurd hd (by decide)
    · exact hslash' hd

lemma sanitizeSegment_ne_dots (segment : String) : sanitizeSegment segment ≠ ['.', '.'] := by
  intro h
  refine dots_ne (segment.toList.map fun c => if c = '/' then '_' else c) ?_
  have hdot : ∀ c : Char, (if c = '\\' then '_' else c) = '.' → c = '.' := by
    intro c hc
    split_ifs at hc with hback
    · exact absurd hc (by decide)
    · exact hc
  obtain ⟨c, cs, heq, hc, hcs⟩ := map_eq_cons_iff.mp h
  obtain ⟨d, ds, rfl, hd, hds⟩ := map_eq_cons_iff.mp hcs
  rw [heq, hdot c hc, hdot d hd, map_eq_nil_iff.mp hds]

lemma Call.proper_directory (x : Call) : ∀ segment ∈ x.directory, Proper segment := by
  intro segment h
  obtain ⟨h, hshort⟩ := mem_filter.mp h
  obtain ⟨hempty, hdot⟩ := of_decide_eq_true hshort
  obtain ⟨id, -, rfl⟩ := mem_map.mp h
  exact ⟨hempty, hdot, sanitizeSegment_ne_dots id, slash_not_mem_sanitizeSegment id⟩

section
variable {sha256 : Bytes → String} {aes : Aesgcm} {calls : List Call} {x y : Call} {files : Files}

lemma Call.location_eq_iff : x.location sha256 = y.location sha256 ↔
    x.directory = y.directory ∧ x.pathHash sha256 = y.pathHash sha256 := by
  unfold Call.location
  rw [Prod.mk.injEq, String.append_left_inj, String.ofList_inj]

lemma Call.proper_name (hdigits : ∀ data, ∀ c ∈ (sha256 data).toList, c ∈ "0123456789abcdef".toList) :
    Proper (x.location sha256).2.toList := by
  have hname : (x.location sha256).2.toList = x.pathHash sha256 ++ ['.', 'e', 'n', 'c'] := by
    simp [Call.location]
  have hlast : ∀ text : Text, text.getLast? ≠ some 'c' → (x.location sha256).2.toList ≠ text := by
    intro text htext h
    rw [← h, hname] at htext
    exact htext (by rw [getLast?_append]; rfl)
  refine ⟨hlast _ (by decide), hlast _ (by decide), hlast _ (by decide), ?_⟩
  rw [hname, mem_append, not_or]
  refine ⟨fun h => ?_, by decide⟩
  exact absurd (hdigits _ _ (mem_of_mem_take h)) (by decide)

/-! ### Blobs -/

lemma openBlob_append {header aad nonce ciphertext data : Bytes} (hheader : pack aad.length = some header)
    (hnonce : nonce.length = 12) (hcipher : 16 ≤ ciphertext.length) (hdecrypt : aes.decrypt nonce ciphertext aad = .ok data) :
    openBlob sha256 aes (header ++ aad ++ nonce ++ ciphertext) (sha256 data) = .ok data := by
  have hfour := length_of_pack hheader
  have htake : (header ++ aad ++ nonce ++ ciphertext).take 4 = header := by
    rw [append_assoc, append_assoc, take_left' hfour]
  have haad : ((header ++ aad ++ nonce ++ ciphertext).drop 4).take aad.length = aad := by
    rw [append_assoc, append_assoc, drop_left' hfour, take_left' rfl]
  have hbody : (header ++ aad ++ nonce ++ ciphertext).drop (4 + aad.length) = nonce ++ ciphertext := by
    rw [append_assoc, drop_left' (by rw [length_append, hfour])]
  have hrest : (header ++ aad ++ nonce ++ ciphertext).drop (4 + aad.length + 12) = ciphertext := by
    rw [drop_left' (by simp only [length_append, hfour, hnonce])]
  have hlength : (header ++ aad ++ nonce ++ ciphertext).length = 4 + aad.length + 12 + ciphertext.length := by
    simp only [length_append, hfour, hnonce]
  unfold openBlob
  rw [if_neg (by omega), htake, unpack_pack hheader]
  simp only []
  rw [if_neg (by omega), haad, hbody, hrest, take_left' hnonce, hdecrypt]
  exact if_pos rfl

lemma openBlob_cases (sha256 : Bytes → String) (aes : Aesgcm) (blob : Bytes) (expected : String) :
    (∃ message, openBlob sha256 aes blob expected = .error (integrityError message)) ∨
    ∃ header aad nonce ciphertext data, pack aad.length = some header ∧ nonce.length = 12 ∧
      blob = header ++ aad ++ nonce ++ ciphertext ∧ aes.decrypt nonce ciphertext aad = .ok data := by
  unfold openBlob
  by_cases hsmall : blob.length < 32
  · rw [if_pos hsmall]
    exact .inl ⟨_, rfl⟩
  rw [if_neg hsmall]
  have hfour : (blob.take 4).length = 4 := by
    rw [length_take]
    omega
  obtain ⟨aadLen, hunpack⟩ := exists_unpack hfour
  rw [hunpack]
  by_cases htruncated : blob.length < 4 + aadLen + 12
  · simp only [if_pos htruncated]
    exact .inl ⟨_, rfl⟩
  simp only [if_neg htruncated]
  cases hdecrypt : aes.decrypt ((blob.drop (4 + aadLen)).take 12) (blob.drop (4 + aadLen + 12))
      ((blob.drop 4).take aadLen) with
  | error text => exact .inl ⟨_, rfl⟩
  | ok data =>
    have haad : ((blob.drop 4).take aadLen).length = aadLen := by
      rw [length_take, length_drop]
      omega
    refine .inr ⟨blob.take 4, _, _, _, data, ?_, ?_, ?_, hdecrypt⟩
    · rw [haad]
      exact pack_unpack hunpack
    · rw [length_take, length_drop]
      omega
    · have hbody := take_append_drop 12 (blob.drop (4 + aadLen))
      rw [drop_drop] at hbody
      rw [append_assoc, append_assoc, hbody, ← drop_drop, take_append_drop, take_append_drop]

variable {blob : Bytes}

lemma Call.exists_header (h : x.blob sha256 aes = some blob) : ∃ header, pack (x.aad sha256).length = some header ∧
      blob = header ++ x.aad sha256 ++ x.nonce ++ aes.encrypt x.nonce x.content (x.aad sha256) := by
  obtain ⟨header, hheader, rfl⟩ := Option.map_eq_some_iff.mp h
  exact ⟨header, hheader, rfl⟩

lemma Authenticates.openBlob_blob (h : Authenticates sha256 aes calls) (hx : x ∈ calls) (hending : x.ending ≠ .refused)
    (hblob : x.blob sha256 aes = some blob) : openBlob sha256 aes blob (sha256 x.content) = .ok x.content := by
  obtain ⟨header, hheader, rfl⟩ := Call.exists_header hblob
  refine openBlob_append hheader x.length_nonce ?_ (h.decrypts x hx hending)
  rw [h.tag]
  omega

lemma Authenticates.openBlob_error (h : Authenticates sha256 aes calls) (expected : String)
    (hforeign : ∀ x ∈ calls, x.ending ≠ .refused → x.blob sha256 aes ≠ some blob) :
    ∃ message, openBlob sha256 aes blob expected = .error (integrityError message) := by
  rcases openBlob_cases sha256 aes blob expected with herror |
    ⟨header, aad, nonce, ciphertext, data, hheader, hnonce, rfl, hdecrypt⟩
  · exact herror
  · obtain ⟨x, hx, hending, rfl, rfl, rfl, rfl⟩ := h.authentic _ _ _ _ hdecrypt
    refine absurd ?_ (hforeign x hx hending)
    unfold Call.blob
    rw [hheader]
    rfl

/-! ### Runs of calls -/

lemma store_ok {reference : BackupReference} (h : (store sha256 aes x files).1 = .ok reference) :
    x.ending ≠ .refused ∧ reference = x.reference sha256 ∧ ∃ blob, x.blob sha256 aes = some blob ∧
      (store sha256 aes x files).2 = Function.update files (x.location sha256) (some blob) := by
  unfold store at h ⊢
  split_ifs at h ⊢ with hrefused
  cases hblob : x.blob sha256 aes with
  | none =>
    rw [hblob] at h
    cases h
  | some blob =>
    rw [hblob] at h
    cases hending : x.ending with
    | stored =>
      rw [hending] at h
      exact ⟨Ending.noConfusion, (Except.ok.inj h).symm, blob, rfl, rfl⟩
    | refused | unopened | cut =>
      rw [hending] at h
      cases h

lemma store_elsewhere {location : List Text × String} (h : x.location sha256 ≠ location) :
    (store sha256 aes x files).2 location = files location := by
  unfold store
  split_ifs
  · rfl
  · cases x.blob sha256 aes with
    | none => rfl
    | some blob =>
      cases x.ending with
      | refused | unopened => rfl
      | stored | cut => exact Function.update_of_ne (Ne.symm h) _ _

lemma run_elsewhere {location : List Text × String} (h : ∀ x ∈ calls, x.location sha256 ≠ location) :
    run sha256 aes files calls location = files location := by
  induction calls generalizing files with
  | nil => rfl
  | cons x calls ih =>
    obtain ⟨hx, hcalls⟩ := forall_mem_cons.mp h
    exact (ih hcalls).trans (store_elsewhere hx)

lemma run_append (before after : List Call) :
    run sha256 aes files (before ++ after) = run sha256 aes (run sha256 aes files before) after := foldl_append

lemma Authenticates.apart_iff (h : Authenticates sha256 aes calls) :
    (∀ x ∈ calls, ∀ y ∈ calls, x.location sha256 = y.location sha256 → x.identity = y.identity) ↔ Distinguished calls := by
  constructor
  · intro hapart x hx y hy hdirectory hpath
    refine hapart x hx y hy (Call.location_eq_iff.mpr ⟨hdirectory, ?_⟩)
    unfold Call.pathHash
    rw [hpath]
  · intro hdistinguished x hx y hy hlocation
    obtain ⟨hdirectory, hhash⟩ := Call.location_eq_iff.mp hlocation
    exact hdistinguished x hx y hy hdirectory (h.injective x hx y hy hhash)

lemma Authenticates.load_run (h : Authenticates sha256 aes calls) (hdistinguished : Distinguished calls)
    {before after : List Call} {reference : BackupReference} (hcalls : calls = before ++ x :: after)
    (hstore : (store sha256 aes x (run sha256 aes files before)).1 = .ok reference)
    (hlater : ∀ y ∈ after, y.identity ≠ x.identity) :
    load sha256 aes (run sha256 aes files calls) reference = .ok x.content := by
  have hx : x ∈ calls := by
    rw [hcalls]
    exact mem_append_right _ mem_cons_self
  have hafter : ∀ y ∈ after, y.location sha256 ≠ x.location sha256 := by
    intro y hy hlocation
    have hy' : y ∈ calls := by
      rw [hcalls]
      exact mem_append_right _ (mem_cons_of_mem _ hy)
    exact hlater y hy (h.apart_iff.mpr hdistinguished y hy' x hx hlocation)
  obtain ⟨hending, rfl, blob, hblob, hfiles⟩ := store_ok hstore
  have hfile : run sha256 aes files calls (x.location sha256) = some blob := by
    rw [hcalls, run_append]
    refine (run_elsewhere hafter).trans ?_
    change (store sha256 aes x (run sha256 aes files before)).2 (x.location sha256) = some blob
    rw [hfiles, Function.update_self]
  have hreference : run sha256 aes files calls ((x.reference sha256).directory, (x.reference sha256).name) = some blob :=
    hfile
  unfold load
  rw [hreference]
  exact h.openBlob_blob hx hending hblob

/-- The vault keeps all backups exactly when sanitising keeps the ids apart. -/
theorem keeps_iff (h : Authenticates sha256 aes calls) : Keeps sha256 aes calls ↔ Distinguished calls := by
  constructor
  · intro hkeeps
    exact h.apart_iff.mp hkeeps.apart
  · intro hdistinguished
    refine ⟨?_, h.apart_iff.mpr hdistinguished, ?_, ?_⟩
    · intro files before x after reference hcalls hstore hlater
      exact h.load_run hdistinguished hcalls hstore hlater
    · exact fun x _ => ⟨x.proper_directory, Call.proper_name h.digits⟩
    · intro files reference blob hfile hforeign
      unfold load
      rw [hfile]
      exact h.openBlob_error reference.sha256 hforeign

end

/-! ### Two targets -/

def twelve (b : UInt8) : Bytes := replicate 12 b

def webCall : Call := ⟨"prod/web", "i1", "c1", "/etc/app.conf", ascii "old", twelve 1, .stored, rfl⟩

def webDatabaseCall : Call := ⟨"prod/web", "i1", "c1", "/etc/db.conf", ascii "new", twelve 3, .stored, rfl⟩

/-- Another target, with the same sanitised id. -/
def otherCall : Call := ⟨"prod_web", "i1", "c1", "/etc/app.conf", ascii "new", twelve 2, .stored, rfl⟩

def sampleSha256 (data : Bytes) : String :=
  if data = utf8 "/etc/app.conf" then "8670dcb679766bcc06938881f6aa61723daf178bc08482d05be97ea5e403ffd5"
  else if data = utf8 "/etc/db.conf" then "01c1a7709cb515ba3a8449e119b9193a740102f2d9a76ed7be1977631ea53d86"
  else if data = ascii "old" then "cba06b5736faf67e54b07b561eae94395e774c517a7d910a54369e1263ccfbd4"
  else "11507a0e2f5e69d5dfa40a62a1bd7b6ee57e6bcd85c67c9b8431b36fff21c437"

/-- `encrypt` for the nonces of these calls, with the key of the bytes 0 to 31. -/
def sampleEncrypt (nonce data : Bytes) : Bytes :=
  if nonce = twelve 1 ∧ data = ascii "old" then
    [24, 175, 129, 168, 248, 42, 46, 77, 100, 156, 151, 206, 133, 157, 207, 108, 105, 252, 229]
  else if nonce = twelve 2 ∧ data = ascii "new" then
    [245, 77, 110, 189, 30, 148, 188, 54, 178, 240, 50, 93, 132, 213, 233, 71, 136, 235, 119]
  else if nonce = twelve 3 ∧ data = ascii "new" then
    [128, 46, 75, 156, 41, 52, 190, 85, 155, 222, 209, 207, 12, 91, 242, 53, 165, 117, 203]
  else data ++ replicate 16 0

/-- Of all ciphertexts, those of the calls decrypt. -/
def sampleAes (calls : List Call) : Aesgcm where
  encrypt nonce data _ := sampleEncrypt nonce data
  decrypt nonce ciphertext aad :=
    match calls.find? fun x => x.nonce = nonce ∧ x.aad sampleSha256 = aad ∧ sampleEncrypt nonce x.content = ciphertext with
    | some x => .ok x.content
    | none => .error ""

lemma length_sampleEncrypt (nonce data : Bytes) : (sampleEncrypt nonce data).length = data.length + 16 := by
  unfold sampleEncrypt
  split_ifs with h1 h2 h3
  · rw [h1.2]
    rfl
  · rw [h2.2]
    rfl
  · rw [h3.2]
    rfl
  · rw [length_append, length_replicate]

lemma digits_sampleSha256 (data : Bytes) : ∀ c ∈ (sampleSha256 data).toList, c ∈ "0123456789abcdef".toList := by
  have hall : ((sampleSha256 data).toList.all fun c => c ∈ "0123456789abcdef".toList) = true := by
    unfold sampleSha256
    split_ifs
    all_goals decide +kernel
  exact fun c hc => of_decide_eq_true (all_eq_true.mp hall c hc)

lemma sampleAes_decrypt {calls : List Call} {nonce ciphertext aad data : Bytes} :
    (sampleAes calls).decrypt nonce ciphertext aad = .ok data ↔ ∃ x, x.content = data ∧ calls.find? (fun x =>
      x.nonce = nonce ∧ x.aad sampleSha256 = aad ∧ sampleEncrypt nonce x.content = ciphertext) = some x := by
  unfold sampleAes
  simp only []
  cases hfind : calls.find? fun x =>
      decide (x.nonce = nonce ∧ x.aad sampleSha256 = aad ∧ sampleEncrypt nonce x.content = ciphertext) with
  | none =>
    constructor
    · intro h
      cases h
    · rintro ⟨x, -, hx⟩
      cases hx
  | some x =>
    constructor
    · intro h
      exact ⟨x, Except.ok.inj h, rfl⟩
    · rintro ⟨y, hdata, hy⟩
      obtain rfl := Option.some.inj hy
      exact congrArg Except.ok hdata

lemma authenticates_sample {calls : List Call} (hnonce : (calls.map Call.nonce).Nodup)
    (hstored : ∀ x ∈ calls, x.ending ≠ .refused)
    (hinjective : ∀ x ∈ calls, ∀ y ∈ calls, x.pathHash sampleSha256 = y.pathHash sampleSha256 →
      x.remotePath = y.remotePath) : Authenticates sampleSha256 (sampleAes calls) calls := by
  refine ⟨fun nonce data _ => length_sampleEncrypt nonce data, ?_, ?_, digits_sampleSha256, hinjective⟩
  · intro x hx _
    refine sampleAes_decrypt.mpr ?_
    have hsome : (calls.find? fun y => y.nonce = x.nonce ∧ y.aad sampleSha256 = x.aad sampleSha256 ∧
        sampleEncrypt x.nonce y.content = sampleEncrypt x.nonce x.content).isSome = true :=
      find?_isSome.mpr ⟨x, hx, decide_eq_true ⟨rfl, rfl, rfl⟩⟩
    obtain ⟨y, hfind⟩ := Option.isSome_iff_exists.mp hsome
    have hy := find?_some hfind
    obtain ⟨hy, -⟩ := of_decide_eq_true hy
    obtain rfl := inj_on_of_nodup_map hnonce (mem_of_find?_eq_some hfind) hx hy
    exact ⟨y, rfl, hfind⟩
  · intro nonce ciphertext aad data hdecrypt
    obtain ⟨x, rfl, hfind⟩ := sampleAes_decrypt.mp hdecrypt
    have hx := find?_some hfind
    obtain ⟨hx, haad, hcipher⟩ := of_decide_eq_true hx
    have hmem := mem_of_find?_eq_some hfind
    exact ⟨x, hmem, hstored x hmem, hx, haad, rfl, hcipher.symm⟩

/-- Two files of one change. -/
theorem webCalls_kept : Distinguished [webCall, webDatabaseCall] ∧
    Keeps sampleSha256 (sampleAes [webCall, webDatabaseCall]) [webCall, webDatabaseCall] := by
  have hauthenticates : Authenticates sampleSha256 (sampleAes [webCall, webDatabaseCall]) [webCall, webDatabaseCall] :=
    authenticates_sample (by decide) (by decide) (by decide +kernel)
  have hdistinguished : Distinguished [webCall, webDatabaseCall] := by
    unfold Distinguished
    decide +kernel
  exact ⟨hdistinguished, (keeps_iff hauthenticates).mpr hdistinguished⟩

/-- The backup of one target takes the file of another. -/
theorem otherCall_overwrites : Authenticates sampleSha256 (sampleAes [webCall, otherCall]) [webCall, otherCall] ∧
    webCall.identity ≠ otherCall.identity ∧ webCall.location sampleSha256 = otherCall.location sampleSha256 ∧
    ¬ Keeps sampleSha256 (sampleAes [webCall, otherCall]) [webCall, otherCall] := by
  have hidentity : webCall.identity ≠ otherCall.identity := by decide
  have hlocation : webCall.location sampleSha256 = otherCall.location sampleSha256 := by decide +kernel
  refine ⟨authenticates_sample (by decide) (by decide) (by decide +kernel), hidentity, hlocation, fun h => ?_⟩
  exact hidentity (h.apart webCall (by simp) otherCall (by simp) hlocation)

end IncidentLens.Changes.EncryptedBackupVault
