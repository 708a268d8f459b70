import Chattice.Client.Messages
import Chattice.Posix.OpenOnce

/-!
# Reads of local files

`InputFile.read` reads the file of an attachment, `_read_regular_file` that of a card image, each in a worker
thread. Both open the path once and check and read what they have opened; other threads do the same meanwhile,
and other processes may replace the file or write to it.

* `FileRead.job` : what either reads, and which files it refuses;
* `Ends` : how a read may end; `SourceEnds` : what the resolution of a card makes of it;
* `reads_one_file` : any of any number of reads ends so.
-/

namespace Chattice.Media

open Asyncio Asyncio.Coro
open Cards (LocalImageSource sourceBytes)
open Client (Exc maxAttachmentSizeBytes)
open Posix

/-- What a system call raises, or an allocation. -/
def isSystem : Exc → Prop
  | .osError .. | .other _ => True
  | _ => False

/-- `InputFile.read` of a path. -/
def inputFileRead (path : String) : Job String Exc where
  path := path
  policy := {
    notRegular := .valueError [.text "attachment path is not a regular file: ", .repr (.str path)]
    limit := some (maxAttachmentSizeBytes,
      .valueError [.text "attachment grew past the 200 MB Google upload limit"])
    count := some (1024 * 1024)
    empty := none }

/-- `_read_regular_file`, where `file.read()` reads to the end in steps of its own. -/
def readRegularFile (path : String) : Job String Exc where
  path := path
  policy := {
    notRegular := .assetPublishError [.text ("Local Card image path must be a regular file: " ++ path)]
    limit := none
    count := none
    empty := some (.assetPublishError [.text ("Local Card image file is empty: " ++ path)]) }

inductive FileRead where
  | attachment (path : String)
  | image (path : String)

def FileRead.job : FileRead → Job String Exc
  | .attachment path => inputFileRead path
  | .image path => readRegularFile path

variable {Inode ι : Type}

/-- The bytes that were read are those of one regular file, the one the path led to when it was opened. A
file that is not written to meanwhile is read as it is, and an attachment is then no larger than the limit;
an image is not empty. -/
structure ReadBack (r : FileRead) (inode : Inode) (during : List (Shared String Inode ι))
    (data : List UInt8) : Prop where
  snapshot : Snapshot r.job inode during data
  stable : ∀ content, (∀ h ∈ during, (h.files inode).bytes = content) → data = content
  attachment : ∀ path content, r = .attachment path → (∀ h ∈ during, (h.files inode).bytes = content) →
    content.length ≤ maxAttachmentSizeBytes
  image : ∀ path, r = .image path → data ≠ []

/-- How a read ends: nothing of it stays open, and the outcome is about one file, or the system's. -/
structure Ends (r : FileRead) (i : ι) (past : List (Shared String Inode ι)) (h : Shared String Inode ι)
    (ended : Except Exc (List UInt8)) : Prop where
  released : ∀ fd d, h.table fd = some d → d.owner ≠ some i
  returned : ∀ data, ended = .ok data →
    ∃ during inode, during <:+: past ∧ ReadBack r inode during data
  refused : ∀ e, ended = .error e →
    isSystem e ∨ ∃ during inode, during <:+: past ∧ Refused r.job inode during e

variable [DecidableEq ι]

theorem ends_of_run {reads : ι → FileRead} {past : List (Shared String Inode ι)}
    {s : State String Inode ι Exc} (hr : Run (fun i => (reads i).job) isSystem past s) {i : ι}
    {ended : Except Exc (List UInt8)} (hended : s.readers i = .ended ended) :
    Ends (reads i) i past s.host ended where
  released := hr.released hended
  returned := by
    rintro data rfl
    obtain ⟨during, inode, hduring, hsnap, hempty⟩ := hr.returned hended
    refine ⟨during, inode, hduring, hsnap, fun content hstable => (hsnap.eq_of_stable hstable).1, ?_, ?_⟩
    · intro path content hread hstable
      rw [hread] at hsnap
      exact (hsnap.eq_of_stable hstable).2 _ _ rfl
    · intro path hread
      rw [hread] at hempty
      exact hempty rfl
  refused := by
    rintro e rfl
    exact hr.refused hended

/-! ## The images of a card -/

def answer : Except Exc (List UInt8) → Outcome Exc (List UInt8)
  | .ok data => .ret data
  | .error e => .raised e

def isAssetPublishError : Exc → Prop
  | .assetPublishError _ => True
  | _ => False

/-- What `_source_bytes` makes of a read that has `ended`: the bytes of one file, an `AssetPublishError`, or what
the read has raised that is no `OSError`, as for a path with a null byte. -/
def SourceEnds (past : List (Shared String Inode ι)) (path : String) (ended : Except Exc (List UInt8))
    (o : Outcome Exc (List UInt8)) : Prop :=
  (∃ data during inode, o = .ret data ∧ during <:+: past ∧ ReadBack (.image path) inode during data) ∨
    ∃ e, o = .raised e ∧
      (isAssetPublishError e ∨ ended = .error e ∧ ∃ className, e = .other className)

omit [DecidableEq ι] in
theorem Refused.isAssetPublishError {path : String} {inode : Inode} {during : List (Shared String Inode ι)}
    {e : Exc} (hr : Refused (readRegularFile path) inode during e) : isAssetPublishError e := by
  cases hr with
  | notRegular ho hkind => trivial
  | tooLarge ho hlimit hsize => cases hlimit
  | empty hempty hsnap =>
    cases hempty
    trivial

omit [DecidableEq ι] in
theorem sourceBytes_ends {past : List (Shared String Inode ι)} {h : Shared String Inode ι} {i : ι}
    {path : String} {ended : Except Exc (List UInt8)} (hends : Ends (.image path) i past h ended)
    {source : LocalImageSource} (hsource : source.content = .path path) {o : Outcome Exc (List UInt8)}
    (hruns : Runs (sourceBytes source) [.called (.readImage path) (answer ended)] o) :
    SourceEnds past path ended o := by
  unfold sourceBytes at hruns
  rw [hsource] at hruns
  obtain ⟨r, t', hcalled, hrest⟩ := runs_call_andThen.mp hruns
  cases hcalled
  cases ended with
  | ok data =>
    obtain ⟨-, rfl⟩ := runs_done.mp hrest
    obtain ⟨during, inode, hduring, hback⟩ := hends.returned data rfl
    exact .inl ⟨data, during, inode, rfl, hduring, hback⟩
  | error e =>
    right
    obtain hsystem | ⟨during, inode, -, hrefused⟩ := hends.refused e rfl
    · cases e with
      | osError notFound text =>
        obtain ⟨-, rfl⟩ := runs_done.mp hrest
        exact ⟨_, rfl, .inl trivial⟩
      | other className =>
        obtain ⟨-, rfl⟩ := runs_done.mp hrest
        exact ⟨_, rfl, .inr ⟨rfl, className, rfl⟩⟩
      | _ => exact hsystem.elim
    · have hpublish := Refused.isAssetPublishError hrefused
      cases e with
      | assetPublishError text =>
        obtain ⟨-, rfl⟩ := runs_done.mp hrest
        exact ⟨_, rfl, .inl trivial⟩
      | _ => exact hpublish.elim

/-- **Main result.** However any number of reads interleave with each other and with whatever else happens to
the files, their paths and the other descriptors, no read touches a descriptor that it has not opened, and one
that has ended has nothing open; it returns the content of one file, the one its path led to, and refuses only
what it has opened. The resolution of a card then has such bytes, or raises an `AssetPublishError` or what the
read has raised that is no `OSError`. -/
theorem reads_one_file (reads : ι → FileRead) (past : List (Shared String Inode ι))
    (s : State String Inode ι Exc) (hr : Run (fun i => (reads i).job) isSystem past s) (i : ι) :
    (∀ h stage, Step (reads i).job isSystem (some i) s.host (s.readers i) h stage →
      ∀ owner, some i ≠ owner → s.host.Keeps owner h) ∧
    ∀ ended, s.readers i = .ended ended → Ends (reads i) i past s.host ended ∧
      ∀ source path o, reads i = .image path → source.content = .path path →
        Runs (sourceBytes source) [.called (.readImage path) (answer ended)] o →
          SourceEnds past path ended o := by
  refine ⟨fun h stage hstep owner hne => hstep.keeps (hr.stands i).1 hne, fun ended hended => ?_⟩
  have hends := ends_of_run hr hended
  refine ⟨hends, fun source path o hread hsource hruns => ?_⟩
  rw [hread] at hends
  exact sourceBytes_ends hends hsource hruns

/-! ## A run -/

/-- A reader that is alone. -/
theorem run_alone (job : Job String Exc) {past : List (Shared String Nat Unit)}
    {h h' : Shared String Nat Unit} {stage stage' : Stage Exc}
    (hr : Run (fun _ => job) isSystem past ⟨h, fun _ => stage⟩)
    (hs : Step job isSystem (some ()) h stage h' stage') :
    Run (fun _ => job) isSystem (past ++ [h']) ⟨h', fun _ => stage'⟩ := by
  have hstep := Run.step (i := ()) hr hs
  have hupdate : Function.update (fun _ : Unit => stage) () stage' = fun _ => stage' :=
    funext fun _ => Function.update_self ..
  rw [hupdate] at hstep
  exact hstep

def reportAndPipe : Nat → File
  | 0 => ⟨.regular, [1, 2]⟩
  | _ => ⟨.fifo, []⟩

/-- A host where the path leads to one of them, with the open descriptor 3 or without. -/
def reportHost (target : Nat) (offset : Option Nat) : Shared String Nat Unit where
  paths := fun _ => some target
  files := reportAndPipe
  table := fun fd => if fd = 3 then offset.map fun offset => ⟨0, offset, some ()⟩ else none

theorem reportHost_set (target : Nat) (offset : Option Nat) (n : Nat) :
    reportHost target (some n) = { reportHost target offset with
      table := Function.update (reportHost target offset).table 3 (some ⟨0, n, some ()⟩) } := by
  have htable : (reportHost target (some n)).table =
      Function.update (reportHost target offset).table 3 (some ⟨0, n, some ()⟩) := by
    funext fd
    unfold reportHost
    by_cases hfd : fd = 3
    · rw [hfd, Function.update_self]
      rfl
    · rw [Function.update_of_ne hfd]
      simp only [if_neg hfd]
  rw [← htable]
  rfl

/-- The path is moved to the pipe once the report is open, and the report is read. -/
theorem swapped_read :
    ∃ (past : List (Shared String Nat Unit)) (s : State String Nat Unit Exc),
      Run (fun _ => (FileRead.attachment "/tmp/report.pdf").job) isSystem past s ∧
        s.readers () = .ended (.ok [1, 2]) ∧
        Ends (.attachment "/tmp/report.pdf") () past s.host (.ok [1, 2]) := by
  have hopens : (reportHost 0 none).Opens (some ()) "/tmp/report.pdf" 3 (reportHost 0 (some 0)) :=
    ⟨rfl, 0, rfl, reportHost_set 0 none 0⟩
  have hfirst : (reportHost 1 (some 0)).Reads 3 (some (1024 * 1024)) [1, 2] (reportHost 1 (some 2)) :=
    ⟨_, rfl, (by rintro n ⟨⟩; decide), fun _ => ⟨List.prefix_rfl, nofun⟩, reportHost_set 1 (some 0) 2⟩
  have hlast : (reportHost 1 (some 2)).Reads 3 (some (1024 * 1024)) [] (reportHost 1 (some 2)) :=
    ⟨_, rfl, (by rintro n ⟨⟩; decide), fun _ => ⟨List.nil_prefix, fun _ => Nat.le_refl 2⟩,
      reportHost_set 1 (some 2) 2⟩
  have hfree : ∀ fd d, (reportHost 0 none).table fd = some d → d.owner = none := by
    intro fd d hd
    unfold reportHost at hd
    simp at hd
  have hopen := run_alone (FileRead.attachment "/tmp/report.pdf").job (.start hfree) (.opened hopens)
  have hmoved := Run.env (h := reportHost 1 (some 0)) hopen ⟨fun _ _ _ => Iff.rfl, fun _ _ _ => rfl⟩
  have hchecked := run_alone _ hmoved (.checked ⟨_, rfl, rfl, rfl⟩)
  have hread := run_alone _ hchecked (.read hfirst)
  have hdone := run_alone _ hread (.read hlast)
  have hclosed := run_alone _ hdone .closed
  exact ⟨_, _, hclosed, rfl,
    ((reads_one_file (fun _ => .attachment "/tmp/report.pdf") _ _ hclosed ()).2 _ rfl).1⟩

end Chattice.Media
