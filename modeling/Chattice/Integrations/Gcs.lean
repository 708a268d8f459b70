import Chattice.Asyncio.Jobs
import Chattice.Client.Request
import Chattice.Python.Path
import Chattice.Python.Quote
import Chattice.Python.Url

/-!
# `GCSAssetPublisher`

Card images are stored in a bucket under `{prefix}{uuid}-{filename}`, and the public URL of an object is
its quoted name under `public_url_base`. Any number of publications run at once; an upload that has raised
or was cancelled may still arrive later.

* `GCSAssetPublisher.init` : a publisher that exists has checked namespaces and an HTTPS base;
* `gcsSystem` : the publications into one bucket;
* `published_stays` : a URL that was given out keeps naming the bytes that were published.
-/

namespace Chattice.Gcs

open Asyncio Asyncio.Coro
open Client (Exc)
open Python

/-! ## The publisher -/

/-- Nothing, or a relative directory with its slash. -/
def IsNamespacePrefix (s : List Char) : Prop :=
  s = [] ∨ ∃ dir, s = dir ++ ['/'] ∧ s.head? ≠ some '/' ∧ ['.', '.'] ∉ pathParts dir

abbrev NamespacePrefix := {s : String // IsNamespacePrefix s.toList}

theorem isNamespacePrefix_rstrip {value : List Char} (hnil : value ≠ []) (hhead : value.head? ≠ some '/')
    (hparts : ['.', '.'] ∉ pathParts value) : IsNamespacePrefix (rstripSlashes value ++ ['/']) := by
  refine .inr ⟨rstripSlashes value, rfl, ?_, pathParts_rstripSlashes value ▸ hparts⟩
  obtain ⟨t, hvalue, ht⟩ := rstripSlashes_append value
  cases hdir : rstripSlashes value with
  | nil =>
    -- a value of slashes only starts with one
    rw [hdir, List.nil_append] at hvalue
    obtain ⟨c, rest, hcons⟩ := List.exists_cons_of_ne_nil hnil
    rw [hcons] at hhead
    refine absurd (congrArg some (ht c ?_)) hhead
    rw [← hvalue, hcons]
    exact List.mem_cons_self
  | cons c dir =>
    rw [hvalue, hdir] at hhead
    exact hhead

/-- `_prefix` -/
def namespacePrefix (value : String) : Except Exc NamespacePrefix :=
  if h : startsWith value "/" = true ∨ ['.', '.'] ∈ pathParts value.toList then
    .error (.valueError [.text "GCS namespace prefixes must be relative and cannot contain '..'"])
  else if hnil : value = "" then .ok ⟨"", .inl rfl⟩
  else .ok ⟨.ofList (rstripSlashes value.toList ++ ['/']), by
    rw [String.toList_ofList]
    rw [not_or] at h
    refine isNamespacePrefix_rstrip (fun hempty => hnil (String.toList_eq_nil_iff.mp hempty)) ?_ h.2
    intro hhead
    refine h.1 ?_
    cases hvalue : value.toList with
    | nil => rw [hvalue] at hhead; cases hhead
    | cons c rest =>
      rw [hvalue] at hhead
      cases hhead
      rw [startsWith, hvalue]
      rfl⟩

/-- `public_url_base.rstrip("/")` of a base that `urlparse` accepts. -/
abbrev PublicUrlBase (special : String → Bool) :=
  {s : String // ∃ configured, isHttpsUrl special configured = true ∧
    s.toList = rstripSlashes configured.toList}

structure GCSAssetPublisher (special : String → Bool) where
  bucket : String
  namespaces : List (String × NamespacePrefix)
  defaultNamespace : Option String
  publicUrlBase : PublicUrlBase special
  uploadTimeout : Rat
  cacheControl : Option String

/-- The arguments of the constructor; of the client, its credentials and its project only whether they are
given. -/
structure PublisherArgs where
  bucket : String
  namespaces : List (String × String) := []
  defaultNamespace : Option String := none
  client : Bool := false
  credentials : Bool := false
  project : Bool := false
  publicUrlBase : Option String := none
  uploadTimeout : Rat := 60
  cacheControl : Option String := none

/-- The check of one entry of `namespaces`. -/
def checkNamespace : String × String → Except Exc (String × NamespacePrefix)
  | (name, value) =>
    if name = "" ∨ name ≠ strip name then
      .error (.valueError [.text "namespace keys must be non-empty logical names"])
    else (namespacePrefix value).map (name, ·)

/-- `https://storage.googleapis.com/{bucket}` -/
def defaultUrlBase (bucket : String) : String := "https://storage.googleapis.com/" ++ quote bucket []

variable {special : String → Bool}

/-- `GCSAssetPublisher.__init__` -/
def GCSAssetPublisher.init (special : String → Bool) (args : PublisherArgs) :
    Except Exc (GCSAssetPublisher special) :=
  if args.bucket = "" ∨ args.bucket ≠ strip args.bucket then
    .error (.valueError [.text "bucket must be a non-empty GCS bucket name"])
  else if args.uploadTimeout ≤ 0 then .error (.valueError [.text "upload_timeout must be positive"])
  else if args.client && (args.credentials || args.project) then
    .error (.valueError [.text ("client cannot be combined with credentials or project; configure " ++
      "the supplied client directly")])
  else do
    let namespaces ← args.namespaces.mapM checkNamespace
    if args.defaultNamespace.any fun name => (namespaces.lookup name).isNone then
      .error (.valueError [.text "default_namespace must be a key in namespaces"])
    else
      let base := args.publicUrlBase.getD (defaultUrlBase args.bucket)
      if h : isHttpsUrl special base = true then
        .ok {
          bucket := args.bucket
          namespaces := namespaces
          defaultNamespace := args.defaultNamespace
          publicUrlBase := ⟨.ofList (rstripSlashes base.toList), base, h, String.toList_ofList⟩
          uploadTimeout := args.uploadTimeout
          cacheControl := args.cacheControl }
      else .error (.valueError [.text "public_url_base must be an absolute HTTPS URL"])

/-- The directory of a namespace: its own, that of the default namespace, or the root of the bucket. -/
def GCSAssetPublisher.directory (publisher : GCSAssetPublisher special) (namespaceName : Option String) :
    Except Exc NamespacePrefix :=
  match namespaceName.or publisher.defaultNamespace with
  | none => .ok ⟨"", .inl rfl⟩
  | some effective =>
    match publisher.namespaces.lookup effective with
    | some found => .ok found
    | none => .error (.assetPublishError [.text "Unknown GCS asset namespace ", .repr (.str effective)])

/-- `filename` is a basename without backslashes. -/
def isBasename (filename : String) : Bool :=
  filename != "" && pathName filename.toList == filename.toList && !contains filename '\\'

/-- `_object_name`, where `uuid4()` has drawn `hex`. -/
def GCSAssetPublisher.objectName (publisher : GCSAssetPublisher special) (filename : String)
    (namespaceName : Option String) (hex : String) : Except Exc String :=
  if isBasename filename then
    (publisher.directory namespaceName).map fun directory => directory.val ++ hex ++ "-" ++ filename
  else .error (.assetPublishError [.text "filename must be a non-empty basename"])

def GCSAssetPublisher.urlOf (publisher : GCSAssetPublisher special) (objectName : String) : String :=
  publisher.publicUrlBase.val ++ "/" ++ quote objectName ['/']

/-- The object that a URL under `base` names. -/
def objectAt (base url : String) : Option String :=
  if startsWith url (base ++ "/") then unquote (removePrefix url (base ++ "/")) else none

/-! ## Publications -/

structure Blob where
  data : List UInt8
  contentType : String
  cacheControl : Option String
  deriving DecidableEq, Repr

/-- One call of `publish`, with the digits that its `uuid4()` draws. -/
structure Publication (special : String → Bool) where
  publisher : GCSAssetPublisher special
  data : List UInt8
  filename : String
  contentType : String
  namespaceName : Option String
  hex : String

namespace Publication

def blob (x : Publication special) : Blob := ⟨x.data, x.contentType, x.publisher.cacheControl⟩

def objectName (x : Publication special) : Except Exc String :=
  x.publisher.objectName x.filename x.namespaceName x.hex

end Publication

/-- `upload_from_string` in its thread. -/
inductive Call where
  | upload (objectName : String) (blob : Blob) (timeout : Rat)

/-- The caller of `publish` has the URL. -/
inductive Effect where
  | returned (url : String)

abbrev sig : Sig where
  Call := Call
  Res := fun _ => Unit
  Eff := Effect
  Exc := Exc

/-- `publish` -/
def publish (x : Publication special) : Coro sig String := do
  let objectName ← ofExcept x.objectName
  Coro.call (S := sig) (.upload objectName x.blob x.publisher.uploadTimeout)
  pure (x.publisher.urlOf objectName)

/-- The caller of `publish` goes on with the URL. -/
def publication (x : Publication special) : Coro sig Unit := do
  let url ← publish x
  act (S := sig) (.returned url)

/-! ## The bucket -/

/-- The objects of the bucket, and the uploads that may still arrive. -/
structure Bucket where
  objects : String → Option Blob
  underway : List (String × Blob)

namespace Bucket

def store (s : Bucket) (objectName : String) (blob : Blob) : Bucket :=
  { s with objects := Function.update s.objects objectName (some blob) }

def start (s : Bucket) (objectName : String) (blob : Blob) : Bucket :=
  { s with underway := (objectName, blob) :: s.underway }

end Bucket

/-- An upload that returns has arrived; one that raises or is cancelled may arrive later, or never. -/
def Answer : Call → Bucket → Outcome Exc Unit → Bucket → Prop
  | .upload objectName blob _, s, .ret (), s' => s' = s.store objectName blob
  | .upload objectName blob _, s, _, s' => s' = s.start objectName blob

inductive Env : Bucket → Bucket → Prop where
  | arrive {s : Bucket} {objectName : String} {blob : Blob} (h : (objectName, blob) ∈ s.underway) :
      Env s (s.store objectName blob)

/-- What `uuid4().hex` is made of. -/
def isUuidHex (hex : String) : Bool :=
  hex.length == 32 && hex.toList.all fun c => ('0' ≤ c && c ≤ '9') || ('a' ≤ c && c ≤ 'f')

/-- Publications by any publishers into one empty bucket; `uuid4()` draws no digits twice. -/
def gcsSystem (special : String → Bool) : System sig (Publication special) Bucket where
  world := ⟨fun _ s => s, Answer⟩
  body := publication
  Init := fun s => s.objects = (fun _ => none) ∧ s.underway = []
  Env := Env
  Admits := fun p x => isUuidHex x.hex = true ∧ ∀ task ∈ p.tasks, task.1.hex ≠ x.hex

/-! ## Names and URLs -/

/-- An object directly in a directory, with no way up. -/
structure LiesIn (directory name : String) : Prop where
  file : ∃ file, name.toList = directory.toList ++ file ∧ file ≠ [] ∧ '/' ∉ file
  relative : name.toList.head? ≠ some '/'
  noWayUp : ['.', '.'] ∉ pathParts name.toList

theorem startsWith_append (s t : String) : startsWith (s ++ t) s = true := by
  rw [startsWith, String.toList_append, List.isPrefixOf_iff_prefix]
  exact List.prefix_append _ _

theorem removePrefix_append (s t : String) : removePrefix (s ++ t) s = t := by
  rw [removePrefix, if_pos (startsWith_append s t), String.toList_append, List.drop_left,
    String.ofList_toList]

/-- A URL names the object it was made for. -/
theorem objectAt_urlOf (publisher : GCSAssetPublisher special) (objectName : String) :
    objectAt publisher.publicUrlBase.val (publisher.urlOf objectName) = some objectName := by
  rw [objectAt, GCSAssetPublisher.urlOf, startsWith_append, removePrefix_append, if_pos rfl,
    unquote_quote (by decide)]

/-- A URL is one that `Image.from_url` accepts. -/
theorem isHttpsUrl_urlOf (publisher : GCSAssetPublisher special) (objectName : String) :
    isHttpsUrl special (publisher.urlOf objectName) = true := by
  obtain ⟨configured, hconfigured, hbase⟩ := publisher.publicUrlBase.property
  obtain ⟨t, hstrip, ht⟩ := rstripSlashes_append configured.toList
  rw [← hbase] at hstrip
  have hurl : publisher.urlOf objectName =
      .ofList (publisher.publicUrlBase.val.toList ++ '/' :: (quote objectName ['/']).toList) := by
    rw [← String.toList_inj, String.toList_ofList, GCSAssetPublisher.urlOf, String.toList_append,
      String.toList_append, List.append_assoc]
    rfl
  rw [hurl]
  refine isHttpsUrl_path ht ?_ _
  rw [← hstrip, String.ofList_toList]
  exact hconfigured

theorem slash_notMem_hex {hex : String} (h : isUuidHex hex = true) : '/' ∉ hex.toList := by
  intro hmem
  have hall := List.all_eq_true.mp (Bool.and_eq_true_iff.mp h).2 _ hmem
  cases hall

theorem dash_notMem_hex {hex : String} (h : isUuidHex hex = true) : '-' ∉ hex.toList := by
  intro hmem
  have hall := List.all_eq_true.mp (Bool.and_eq_true_iff.mp h).2 _ hmem
  cases hall

/-- What a directory holds directly is what follows the last slash. -/
theorem rtakeWhile_file {directory file : List Char} (hdirectory : IsNamespacePrefix directory)
    (hfile : '/' ∉ file) : (directory ++ file).rtakeWhile (· != '/') = file := by
  have hall : ∀ c ∈ file.reverse, (c != '/') = true := by
    intro c hc
    rw [bne_iff_ne]
    rintro rfl
    exact hfile (List.mem_reverse.mp hc)
  rw [List.rtakeWhile, List.reverse_append, List.takeWhile_append_of_pos hall]
  obtain rfl | ⟨dir, rfl, -⟩ := hdirectory
  · simp
  · simp

variable {x y : Publication special} {objectName : String}

theorem objectName_eq (h : x.objectName = .ok objectName) :
    isBasename x.filename = true ∧ ∃ directory, x.publisher.directory x.namespaceName = .ok directory ∧
      objectName = directory.val ++ x.hex ++ "-" ++ x.filename := by
  unfold Publication.objectName GCSAssetPublisher.objectName at h
  split at h
  · next hbasename =>
    cases hdirectory : x.publisher.directory x.namespaceName with
    | error e => rw [hdirectory] at h; cases h
    | ok directory =>
      rw [hdirectory] at h
      cases h
      exact ⟨hbasename, directory, rfl, rfl⟩
  · cases h

theorem slash_notMem_basename {filename : String} (h : isBasename filename = true) :
    '/' ∉ filename.toList := by
  rw [isBasename, Bool.and_eq_true, Bool.and_eq_true, bne_iff_ne, beq_iff_eq] at h
  refine ((pathName_eq_iff ?_).mp h.1.2).1
  intro hnil
  exact h.1.1 (String.toList_eq_nil_iff.mp hnil)

/-- The digits and the file name, after the directory. -/
def fileChars (x : Publication special) : List Char := x.hex.toList ++ '-' :: x.filename.toList

theorem slash_notMem_fileChars (hhex : isUuidHex x.hex = true) (hbasename : isBasename x.filename = true) :
    '/' ∉ fileChars x := by
  rw [fileChars, List.mem_append, List.mem_cons, not_or, not_or]
  exact ⟨slash_notMem_hex hhex, by decide, slash_notMem_basename hbasename⟩

theorem toList_objectName {directory : String} (h : objectName = directory ++ x.hex ++ "-" ++ x.filename) :
    objectName.toList = directory.toList ++ fileChars x := by
  rw [h, String.toList_append, String.toList_append, String.toList_append, List.append_assoc,
    List.append_assoc]
  rfl

/-- Two publications with one object name have drawn the same digits. -/
theorem hex_eq_of_objectName (hx : x.objectName = .ok objectName) (hy : y.objectName = .ok objectName)
    (hxhex : isUuidHex x.hex = true) (hyhex : isUuidHex y.hex = true) : x.hex = y.hex := by
  obtain ⟨hxname, directory, -, hxeq⟩ := objectName_eq hx
  obtain ⟨hyname, directory', -, hyeq⟩ := objectName_eq hy
  have hfile : fileChars x = fileChars y := by
    rw [← rtakeWhile_file directory.property (slash_notMem_fileChars hxhex hxname),
      ← rtakeWhile_file directory'.property (slash_notMem_fileChars hyhex hyname), ← toList_objectName hxeq,
      ← toList_objectName hyeq]
  have hdigits : ∀ z : Publication special, isUuidHex z.hex = true →
      (fileChars z).takeWhile (· != '-') = z.hex.toList := by
    intro z hz
    rw [fileChars, List.takeWhile_append_of_pos, List.takeWhile_cons_of_neg (by decide), List.append_nil]
    intro c hc
    rw [bne_iff_ne]
    rintro rfl
    exact dash_notMem_hex hz hc
  rw [← String.toList_inj, ← hdigits x hxhex, ← hdigits y hyhex, hfile]

/-- An object lies directly in the directory of its namespace. -/
theorem liesIn_directory (hx : x.objectName = .ok objectName) (hhex : isUuidHex x.hex = true) :
    ∃ directory, x.publisher.directory x.namespaceName = .ok directory ∧
      LiesIn directory.val objectName := by
  obtain ⟨hbasename, directory, hdirectory, heq⟩ := objectName_eq hx
  have hname := toList_objectName heq
  have hslash := slash_notMem_fileChars hhex hbasename
  -- the dash tells the file from the special parts of a path
  have hdash : ∀ special, '-' ∉ special → fileChars x ≠ special := by
    rintro special hnone rfl
    exact hnone (List.mem_append_right _ List.mem_cons_self)
  have hparts : ['.', '.'] ∉ pathParts (fileChars x) := by
    rw [pathParts_of_no_slash hslash (hdash _ (by decide)) (hdash _ (by decide)), List.mem_singleton]
    exact (hdash _ (by decide)).symm
  refine ⟨directory, hdirectory, ⟨fileChars x, hname, hdash _ (by decide), hslash⟩, ?_, ?_⟩
  · rw [hname]
    obtain hnil | ⟨dir, hdir, hhead, -⟩ := directory.property
    · rw [hnil, List.nil_append]
      exact fun hhead => hslash (List.mem_of_mem_head? hhead)
    · rw [hdir] at hhead ⊢
      rw [List.head?_append_of_ne_nil _ (by simp)]
      exact hhead
  · rw [hname]
    obtain hnil | ⟨dir, hdir, -, hup⟩ := directory.property
    · rw [hnil, List.nil_append]
      exact hparts
    · rw [hdir, List.append_assoc, List.singleton_append, pathParts_append, List.mem_append, not_or]
      exact ⟨hup, hparts⟩

/-! ## Every run -/

abbrev Log (special : String → Bool) := List (Entry sig (Publication special) Bucket)

/-- A call of the log uploads the publication's bytes under its name. -/
def Uploads (log : Log special) : Prop :=
  ∀ x objectName blob timeout r pre, .called x (.upload objectName blob timeout) r pre ∈ log →
    x.objectName = .ok objectName ∧ blob = x.blob

/-- The bucket has the object, or may still get it. -/
def Bucket.Has (s : Bucket) (objectName : String) (blob : Blob) : Prop :=
  s.objects objectName = some blob ∨ (objectName, blob) ∈ s.underway

/-- What the bucket has, or may still get, some call of the log has uploaded. -/
def Uploaded (h : History sig (Publication special) Bucket) : Prop :=
  ∀ objectName blob, h.state.Has objectName blob →
    ∃ x timeout r pre, .called x (.upload objectName blob timeout) r pre ∈ h.log

/-- An upload that has returned is in the bucket, or another one under its name is. -/
def Arrived (h : History sig (Publication special) Bucket) : Prop :=
  ∀ x objectName blob timeout pre, .called x (.upload objectName blob timeout) (.ret ()) pre ∈ h.log →
    (h.state.objects objectName).isSome = true

/-- A URL is given out after the upload has returned. -/
def Given (log : Log special) : Prop :=
  ∀ x url pre, .acted x (.returned url) pre ∈ log → ∃ objectName timeout pre',
    x.objectName = .ok objectName ∧ url = x.publisher.urlOf objectName ∧
      .called x (.upload objectName x.blob timeout) (.ret ()) pre' ∈ log

/-- What every history of the publications satisfies. -/
structure Inv (h : History sig (Publication special) Bucket) : Prop where
  uploads : Uploads h.log
  uploaded : Uploaded h
  arrived : Arrived h
  given : Given h.log

namespace Bucket

variable {s s' : Bucket} {name objectName : String} {blob b : Blob}

@[simp] theorem store_self : (s.store objectName blob).objects objectName = some blob :=
  Function.update_self ..

theorem store_of_ne (h : name ≠ objectName) : (s.store objectName blob).objects name = s.objects name :=
  Function.update_of_ne h ..

theorem store_isSome (h : (s.objects name).isSome = true) :
    ((s.store objectName blob).objects name).isSome = true := by
  by_cases heq : name = objectName
  · rw [heq, store_self]
    rfl
  · rw [store_of_ne heq]
    exact h

theorem Has.of_store (h : (s.store objectName blob).Has name b) :
    name = objectName ∧ b = blob ∨ s.Has name b := by
  obtain hstored | hunderway := h
  · by_cases heq : name = objectName
    · rw [heq, store_self] at hstored
      exact .inl ⟨heq, (Option.some.inj hstored).symm⟩
    · rw [store_of_ne heq] at hstored
      exact .inr (.inl hstored)
  · exact .inr (.inr hunderway)

theorem Has.of_start (h : (s.start objectName blob).Has name b) :
    name = objectName ∧ b = blob ∨ s.Has name b := by
  obtain hstored | hunderway := h
  · exact .inr (.inl hstored)
  · obtain heq | hrest := List.mem_cons.mp hunderway
    · cases heq
      exact .inl ⟨rfl, rfl⟩
    · exact .inr (.inr hrest)

end Bucket

/-- However an upload ends, it takes nothing from the bucket and brings nothing but its own. -/
theorem answer_has {s s' : Bucket} {r : Outcome Exc Unit} {objectName name : String} {blob b : Blob}
    {timeout : Rat} (ha : Answer (.upload objectName blob timeout) s r s') :
    ((s.objects name).isSome = true → (s'.objects name).isSome = true) ∧
      (s'.Has name b → name = objectName ∧ b = blob ∨ s.Has name b) := by
  cases r with
  | ret a =>
    obtain rfl : s' = s.store objectName blob := ha
    exact ⟨Bucket.store_isSome, Bucket.Has.of_store⟩
  | raised e =>
    obtain rfl : s' = s.start objectName blob := ha
    exact ⟨id, Bucket.Has.of_start⟩
  | cancelled =>
    obtain rfl : s' = s.start objectName blob := ha
    exact ⟨id, Bucket.Has.of_start⟩

variable {h : History sig (Publication special) Bucket}

theorem Inv.call {r : Outcome Exc Unit} {s : Bucket} {timeout : Rat} (hI : Inv h)
    (hx : x.objectName = .ok objectName) (ha : Answer (.upload objectName x.blob timeout) h.state r s) :
    Inv (h.call x (.upload objectName x.blob timeout) r s) where
  uploads := by
    intro y name blob t r' pre hmem
    obtain hold | hnew := List.mem_append.mp hmem
    · exact hI.uploads y name blob t r' pre hold
    · cases List.mem_singleton.mp hnew
      exact ⟨hx, rfl⟩
  uploaded := by
    intro name blob hhas
    obtain ⟨rfl, rfl⟩ | hold := (answer_has ha).2 hhas
    · exact ⟨x, timeout, r, h.state, List.mem_append_right _ (List.mem_singleton.mpr rfl)⟩
    · obtain ⟨y, t, r', pre, hmem⟩ := hI.uploaded name blob hold
      exact ⟨y, t, r', pre, List.mem_append_left _ hmem⟩
  arrived := by
    intro y name blob t pre hmem
    obtain hold | hnew := List.mem_append.mp hmem
    · exact (answer_has (b := blob) ha).1 (hI.arrived y name blob t pre hold)
    · cases List.mem_singleton.mp hnew
      obtain rfl : s = h.state.store objectName x.blob := ha
      show ((h.state.store objectName x.blob).objects objectName).isSome = true
      rw [Bucket.store_self]
      rfl
  given := by
    intro y url pre hmem
    obtain hold | hnew := List.mem_append.mp hmem
    · obtain ⟨name, t, pre', hname, hurl, hcalled⟩ := hI.given y url pre hold
      exact ⟨name, t, pre', hname, hurl, List.mem_append_left _ hcalled⟩
    · cases List.mem_singleton.mp hnew

theorem Inv.act {timeout : Rat} {pre : Bucket} (hI : Inv h) (hx : x.objectName = .ok objectName)
    (hcalled : .called x (.upload objectName x.blob timeout) (.ret ()) pre ∈ h.log) :
    Inv (h.act (gcsSystem special).world x (.returned (x.publisher.urlOf objectName))) where
  uploads := by
    intro y name blob t r pre' hmem
    obtain hold | hnew := List.mem_append.mp hmem
    · exact hI.uploads y name blob t r pre' hold
    · cases List.mem_singleton.mp hnew
  uploaded := by
    intro name blob hhas
    obtain ⟨y, t, r', pre', hmem⟩ := hI.uploaded name blob hhas
    exact ⟨y, t, r', pre', List.mem_append_left _ hmem⟩
  arrived := by
    intro y name blob t pre' hmem
    obtain hold | hnew := List.mem_append.mp hmem
    · exact hI.arrived y name blob t pre' hold
    · cases List.mem_singleton.mp hnew
  given := by
    intro y url pre' hmem
    obtain hold | hnew := List.mem_append.mp hmem
    · obtain ⟨name, t, pre'', hname, hurl, hcalled'⟩ := hI.given y url pre' hold
      exact ⟨name, t, pre'', hname, hurl, List.mem_append_left _ hcalled'⟩
    · cases List.mem_singleton.mp hnew
      exact ⟨objectName, timeout, pre, hx, rfl, List.mem_append_left _ hcalled⟩

theorem Inv.arrive {name : String} {blob : Blob} (hI : Inv h) (hunderway : (name, blob) ∈ h.state.underway) :
    Inv ⟨h.state.store name blob, h.log⟩ where
  uploads := hI.uploads
  uploaded := by
    intro name' blob' hhas
    obtain ⟨rfl, rfl⟩ | hold := Bucket.Has.of_store hhas
    · exact hI.uploaded _ _ (.inr hunderway)
    · exact hI.uploaded _ _ hold
  arrived := by
    intro y name' blob' t pre hmem
    exact Bucket.store_isSome (hI.arrived y name' blob' t pre hmem)
  given := hI.given

/-- Every publication keeps the invariant from await to await. -/
theorem wp_publication (x : Publication special) (h : History sig (Publication special) Bucket)
    (hI : Inv h) : (publication x).wp (gcsSystem special).world x Inv (fun _ => Inv) h := by
  cases hx : x.objectName with
  | error e =>
    rw [publication, publish, hx]
    exact hI
  | ok objectName =>
    rw [publication, publish, hx]
    refine ⟨hI, fun h' hle hI' r s ha => ?_⟩
    have hcalled := hI'.call hx ha
    cases r with
    | ret a => exact hcalled.act hx (List.mem_append_right _ (List.mem_singleton.mpr rfl))
    | raised e => exact hcalled
    | cancelled => exact hcalled

theorem Inv.init {s : Bucket} (hobjects : s.objects = fun _ => none) (hunderway : s.underway = []) :
    Inv (⟨s, []⟩ : History sig (Publication special) Bucket) where
  uploads := by
    intro x name blob t r pre hmem
    cases hmem
  uploaded := by
    rintro name blob (hstored | hmem)
    · rw [hobjects] at hstored
      cases hstored
    · rw [hunderway] at hmem
      cases hmem
  arrived := by
    intro x name blob t pre hmem
    cases hmem
  given := by
    intro x url pre hmem
    cases hmem

theorem inv_invariant (special : String → Bool) : (gcsSystem special).Invariant Inv where
  init := fun s hs => .init hs.1 hs.2
  env := by
    rintro h s hI ⟨hunderway⟩
    exact hI.arrive hunderway
  body := wp_publication

/-- What stays true of a URL that a publication gave out: it is an HTTPS URL, it names an object directly
in the directory of the namespace, and that object is what was published. -/
structure Stays (s : Bucket) (x : Publication special) (url name : String) : Prop where
  https : isHttpsUrl special url = true
  names : objectAt x.publisher.publicUrlBase.val url = some name
  inDirectory : ∃ directory, x.publisher.directory x.namespaceName = .ok directory ∧
    LiesIn directory.val name
  stored : s.objects name = some x.blob

/-- **Main result.** In every run, of any publishers, with uploads that fail, are cancelled and arrive late:
a URL that a publication has given out keeps naming the bytes it published, and no other publication's URL
names that object. -/
theorem published_stays (special : String → Bool) (p : Pool sig (Publication special) Bucket)
    (hp : (gcsSystem special).Reach p) (x : Publication special) (url : String) (pre : Bucket)
    (hgiven : .acted x (.returned url) pre ∈ p.hist.log) :
    ∃ name, Stays p.hist.state x url name ∧
      ∀ y url' pre', .acted y (.returned url') pre' ∈ p.hist.log →
        objectAt y.publisher.publicUrlBase.val url' = some name → y = x := by
  have hI : Inv p.hist := (inv_invariant special).reach hp
  have hdistinct : (p.jobs.map Publication.hex).Nodup ∧ ∀ e ∈ p.hist.log, e.job ∈ p.jobs :=
    hp.distinct fun p x (hx : (gcsSystem special).Admits p x) => hx.2
  obtain ⟨hnodup, hjobs⟩ := hdistinct
  have hhex : ∀ x ∈ p.jobs, isUuidHex x.hex = true :=
    hp.admitted fun p x (hx : (gcsSystem special).Admits p x) => hx.1
  -- publications with one object name are one
  have hsame : ∀ {y z : Publication special} {name : String}, y ∈ p.jobs → z ∈ p.jobs →
      y.objectName = .ok name → z.objectName = .ok name → y = z := by
    intro y z name hy hz hyname hzname
    exact List.inj_on_of_nodup_map hnodup hy hz
      (hex_eq_of_objectName hyname hzname (hhex y hy) (hhex z hz))
  obtain ⟨name, timeout, pre', hname, rfl, hcalled⟩ := hI.given x url pre hgiven
  have hx : x ∈ p.jobs := hjobs _ hgiven
  refine ⟨name, ⟨isHttpsUrl_urlOf _ _, objectAt_urlOf _ _, liesIn_directory hname (hhex x hx), ?_⟩, ?_⟩
  · obtain ⟨blob, hblob⟩ := Option.isSome_iff_exists.mp (hI.arrived x name x.blob timeout pre' hcalled)
    obtain ⟨y, t, r, pre'', hmem⟩ := hI.uploaded name blob (.inl hblob)
    obtain ⟨hyname, rfl⟩ := hI.uploads y name blob t r pre'' hmem
    rw [hblob, hsame (y := y) (hjobs _ hmem) hx hyname hname]
  · intro y url' pre'' hgiven' hobject
    obtain ⟨name', t, pre₃, hyname, rfl, -⟩ := hI.given y url' pre'' hgiven'
    rw [objectAt_urlOf, Option.some.injEq] at hobject
    exact hsame (hjobs _ hgiven') hx (hobject ▸ hyname) hname

/-! ## A run -/

def reports : GCSAssetPublisher fun _ => false where
  bucket := "chat-assets"
  namespaces := [("reports", ⟨"reports/", .inr ⟨"reports".toList, rfl, by decide, by decide⟩⟩)]
  defaultNamespace := some "reports"
  publicUrlBase := ⟨"https://cdn.example.com", "https://cdn.example.com/", by decide, by decide⟩
  uploadTimeout := 60
  cacheControl := none

/-- `publish(data, filename="daily report.png", content_type="image/png")` -/
def daily (data : List UInt8) (hex : String) : Publication fun _ => false :=
  ⟨reports, data, "daily report.png", "image/png", none, hex⟩

/-- The first publication of the report is cancelled, the second one returns, and then the first arrives. -/
theorem daily_stays :
    ∃ p, (gcsSystem fun _ => false).Reach p ∧
      ∃ name, Stays p.hist.state (daily [2] "0123456789abcdef0123456789abcdef")
        "https://cdn.example.com/reports/0123456789abcdef0123456789abcdef-daily%20report.png" name := by
  have hurl : "https://cdn.example.com/reports/0123456789abcdef0123456789abcdef-daily%20report.png" =
      reports.urlOf ("reports/" ++ "0123456789abcdef0123456789abcdef" ++ "-" ++ "daily report.png") := by
    decide +kernel
  have hcancelled := System.Reach.start (Y := gcsSystem fun _ => false)
    (x := daily [1] "fedcba9876543210fedcba9876543210") (r := .cancelled)
    (.init (s := ⟨fun _ => none, []⟩) ⟨rfl, rfl⟩) ⟨by decide +kernel, by simp⟩ rfl rfl rfl
  have hreturned := System.Reach.start (x := daily [2] "0123456789abcdef0123456789abcdef") (r := .ret ())
    hcancelled ⟨by decide +kernel, by decide +kernel⟩ rfl rfl rfl
  have harrived := System.Reach.env hreturned (.arrive List.mem_cons_self)
  obtain ⟨name, hstays, -⟩ := published_stays _ _ harrived _ _ _
    (List.mem_append_right _ (List.mem_singleton.mpr rfl))
  rw [hurl]
  exact ⟨_, harrived, name, hstays⟩

end Chattice.Gcs
