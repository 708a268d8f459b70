import Chattice.Posix.Files
import Mathlib.Data.List.Infix

/-!
# Files that are opened once

A reader opens a path, checks what it has opened through the descriptor, reads it to its end and closes it
again. Any number of readers share one table of descriptors, and everybody else does what they like between
any two system calls.

* `Step` : what one reader does; `Run` : any interleaving, with the hosts it has seen, oldest first;
* `Snapshot` : what a reader returns is the content of one file, the one its path led to at the open;
* `Snapshot.eq_of_stable` : a file that is not written to is returned as it is;
* `Run.stands` : what holds of every reader in every run.
-/

namespace Posix

variable {Path Inode ι ε : Type}

/-! ## Readers -/

/-- What a reader checks: that the file is regular, that it is not too large, how much it reads at once, and
whether it may be empty. -/
structure Policy (ε : Type) where
  notRegular : ε
  limit : Option (Nat × ε)
  count : Option Nat
  empty : Option ε

/-- Where a reader stands: what it holds, and how it is going to end. -/
inductive Stage (ε : Type) where
  | opening
  | checking (fd : Nat)
  | reading (fd : Nat) (chunks : List (List UInt8))
  | closing (fd : Nat) (ended : Except ε (List UInt8))
  | ended (ended : Except ε (List UInt8))

/-- The descriptor that is still to be closed. -/
def Stage.fd : Stage ε → Option Nat
  | .opening | .ended _ => none
  | .checking fd | .reading fd _ | .closing fd _ => some fd

namespace Policy

/-- The checks of the descriptor. -/
def check (p : Policy ε) (kind : FileKind) (size : Nat) : Except ε Unit :=
  if kind ≠ .regular then .error p.notRegular
  else
    match p.limit with
    | some (max, e) => if size > max then .error e else .ok ()
    | none => .ok ()

def afterCheck (p : Policy ε) (fd : Nat) (kind : FileKind) (size : Nat) : Stage ε :=
  match p.check kind size with
  | .ok () => .reading fd []
  | .error e => .closing fd (.error e)

/-- The check of the content, once the descriptor is closed. -/
def finish (p : Policy ε) (data : List UInt8) : Except ε (List UInt8) :=
  match p.empty with
  | some e => if data.isEmpty then .error e else .ok data
  | none => .ok data

end Policy

/-- The loop goes on until there is nothing left to read. -/
def afterRead (fd : Nat) (chunks : List (List UInt8)) (chunk : List UInt8) : Stage ε :=
  if chunk.isEmpty then .closing fd (.ok chunks.flatten) else .reading fd (chunks ++ [chunk])

structure Job (Path ε : Type) where
  path : Path
  policy : Policy ε

/-- One step of a reader: a system call that returns, or raises a `sys` exception. The descriptor is closed
however the checks and the reads end. -/
inductive Step {Owner : Type} (job : Job Path ε) (sys : ε → Prop) (owner : Owner) :
    Host Path Inode Owner → Stage ε → Host Path Inode Owner → Stage ε → Prop where
  | notOpened {h : Host Path Inode Owner} {e : ε} (he : sys e) :
      Step job sys owner h .opening h (.ended (.error e))
  | opened {h h' : Host Path Inode Owner} {fd : Nat} (ho : h.Opens owner job.path fd h') :
      Step job sys owner h .opening h' (.checking fd)
  | notChecked {h : Host Path Inode Owner} {fd : Nat} {e : ε} (he : sys e) :
      Step job sys owner h (.checking fd) h (.closing fd (.error e))
  | checked {h : Host Path Inode Owner} {fd size : Nat} {kind : FileKind} (hs : h.Stats fd kind size) :
      Step job sys owner h (.checking fd) h (job.policy.afterCheck fd kind size)
  | notRead {h : Host Path Inode Owner} {fd : Nat} {chunks : List (List UInt8)} {e : ε} (he : sys e) :
      Step job sys owner h (.reading fd chunks) h (.closing fd (.error e))
  | read {h h' : Host Path Inode Owner} {fd : Nat} {chunks : List (List UInt8)} {chunk : List UInt8}
      (hr : h.Reads fd job.policy.count chunk h') :
      Step job sys owner h (.reading fd chunks) h' (afterRead fd chunks chunk)
  | closed {h : Host Path Inode Owner} {fd : Nat} {ended : Except ε (List UInt8)} :
      Step job sys owner h (.closing fd ended) (h.closed fd) (.ended (ended.bind job.policy.finish))
  | notClosed {h : Host Path Inode Owner} {fd : Nat} {ended : Except ε (List UInt8)} {e : ε} (he : sys e) :
      Step job sys owner h (.closing fd ended) (h.closed fd) (.ended (.error e))

/-! ## Runs -/

/-- The owner of a descriptor is the reader that has opened it, or nobody of interest. -/
abbrev Shared (Path Inode ι : Type) := Host Path Inode (Option ι)

structure State (Path Inode ι ε : Type) where
  host : Shared Path Inode ι
  readers : ι → Stage ε

inductive Run [DecidableEq ι] (jobs : ι → Job Path ε) (sys : ε → Prop) :
    List (Shared Path Inode ι) → State Path Inode ι ε → Prop where
  | start {h : Shared Path Inode ι} (hfree : ∀ fd d, h.table fd = some d → d.owner = none) :
      Run jobs sys [h] ⟨h, fun _ => .opening⟩
  | env {past : List (Shared Path Inode ι)} {s : State Path Inode ι ε} {h : Shared Path Inode ι}
      (hr : Run jobs sys past s) (hc : s.host.Changes (fun owner => owner.isSome = true) h) :
      Run jobs sys (past ++ [h]) ⟨h, s.readers⟩
  | step {past : List (Shared Path Inode ι)} {s : State Path Inode ι ε} {i : ι}
      {h : Shared Path Inode ι} {stage : Stage ε} (hr : Run jobs sys past s)
      (hs : Step (jobs i) sys (some i) s.host (s.readers i) h stage) :
      Run jobs sys (past ++ [h]) ⟨h, Function.update s.readers i stage⟩

/-! ## What a reader returns -/

/-- The file has been regular and, at one moment, not too large. -/
structure Checked {Owner : Type} (p : Policy ε) (inode : Inode) (during : List (Host Path Inode Owner)) :
    Prop where
  regular : ∀ h ∈ during, (h.files inode).kind = .regular
  sized : ∀ max e, p.limit = some (max, e) → ∃ h ∈ during, (h.files inode).bytes.length ≤ max

/-- The first of the hosts is the one at the open, where the path led to `inode`. -/
def OpenedAt {Owner : Type} (path : Path) (inode : Inode) (during : List (Host Path Inode Owner)) : Prop :=
  ∃ first rest, during = first :: rest ∧ first.paths path = some inode

/-- Every byte has been at its place in the file. -/
def Gathered {Owner : Type} (inode : Inode) (during : List (Host Path Inode Owner)) (data : List UInt8) :
    Prop :=
  ∀ (k : Nat) (byte : UInt8), data[k]? = some byte →
    ∃ h ∈ during, (h.files inode).bytes[k]? = some byte

/-- `data` is what the file `inode` holds, read while the hosts were `during`: from the open of the path, and
to the end of the file. -/
structure Snapshot {Owner : Type} (job : Job Path ε) (inode : Inode)
    (during : List (Host Path Inode Owner)) (data : List UInt8) : Prop where
  opened : OpenedAt job.path inode during
  checked : Checked job.policy inode during
  gathered : Gathered inode during data
  whole : ∃ h ∈ during, (h.files inode).bytes.length ≤ data.length

/-- A file that nobody writes to is returned as it is, and is not too large. -/
theorem Snapshot.eq_of_stable {Owner : Type} {job : Job Path ε} {inode : Inode}
    {during : List (Host Path Inode Owner)} {data content : List UInt8} (h : Snapshot job inode during data)
    (hstable : ∀ g ∈ during, (g.files inode).bytes = content) :
    data = content ∧ ∀ max e, job.policy.limit = some (max, e) → content.length ≤ max := by
  obtain ⟨g, hg, hwhole⟩ := h.whole
  rw [hstable g hg] at hwhole
  constructor
  · refine List.ext_getElem? fun k => ?_
    cases hbyte : data[k]? with
    | some byte =>
      obtain ⟨g, hg, hcontent⟩ := h.gathered k byte hbyte
      rw [← hcontent, hstable g hg]
    | none =>
      rw [List.getElem?_eq_none_iff] at hbyte
      exact (List.getElem?_eq_none (by omega)).symm
  · intro max e hlimit
    obtain ⟨g, hg, hsize⟩ := h.checked.sized max e hlimit
    rw [hstable g hg] at hsize
    exact hsize

/-- Why the content of the file `inode` is refused. -/
inductive Refused {Owner : Type} (job : Job Path ε) (inode : Inode)
    (during : List (Host Path Inode Owner)) : ε → Prop where
  | notRegular (ho : OpenedAt job.path inode during) (h : ∀ g ∈ during, (g.files inode).kind ≠ .regular) :
      Refused job inode during job.policy.notRegular
  | tooLarge {max : Nat} {e : ε} (ho : OpenedAt job.path inode during)
      (hlimit : job.policy.limit = some (max, e)) (h : ∃ g ∈ during, max < (g.files inode).bytes.length) :
      Refused job inode during e
  | empty {e : ε} (hempty : job.policy.empty = some e) (h : Snapshot job inode during []) :
      Refused job inode during e

/-! ## The invariant -/

section Invariant

variable {Owner : Type} {job : Job Path ε} {sys : ε → Prop} {owner : Owner}
  {past during : List (Host Path Inode Owner)} {h h' : Host Path Inode Owner} {fd offset : Nat}
  {inode : Inode} {stage stage' : Stage ε}

/-- `owner` holds `fd` on `inode` at `offset`, and the hosts have been `during` since it was opened. -/
structure Follows (path : Path) (owner : Owner) (past during : List (Host Path Inode Owner))
    (h : Host Path Inode Owner) (fd : Nat) (inode : Inode) (offset : Nat) : Prop where
  held : h.table fd = some ⟨inode, offset, owner⟩
  since : during <:+ past
  opened : OpenedAt path inode during
  kinds : ∀ g ∈ during, (g.files inode).kind = (h.files inode).kind

/-- What is known of a reader at a stage. -/
def Stands (job : Job Path ε) (sys : ε → Prop) (owner : Owner) (past : List (Host Path Inode Owner))
    (h : Host Path Inode Owner) : Stage ε → Prop
  | .opening => True
  | .checking fd => ∃ during inode, Follows job.path owner past during h fd inode 0
  | .reading fd chunks => ∃ during inode,
      Follows job.path owner past during h fd inode chunks.flatten.length ∧
        Checked job.policy inode during ∧ Gathered inode during chunks.flatten
  | .closing fd (.ok data) => ∃ during inode offset,
      Follows job.path owner past during h fd inode offset ∧ Snapshot job inode during data
  | .closing fd (.error e) => ∃ during inode offset,
      Follows job.path owner past during h fd inode offset ∧ (sys e ∨ Refused job inode during e)
  | .ended (.ok data) => ∃ during inode, during <:+: past ∧ Snapshot job inode during data ∧
      (job.policy.empty.isSome = true → data ≠ [])
  | .ended (.error e) => sys e ∨ ∃ during inode, during <:+: past ∧ Refused job inode during e

/-- The owner holds nothing but the descriptor of its stage. -/
def Tidy (owner : Owner) (h : Host Path Inode Owner) (stage : Stage ε) : Prop :=
  ∀ fd d, d.owner = owner → h.table fd = some d → stage.fd = some fd

theorem Host.Keeps.refl (owner : Owner) (h : Host Path Inode Owner) : h.Keeps owner h where
  descriptors := fun _ _ _ => Iff.rfl
  kinds := fun _ _ _ _ => rfl

theorem Follows.append {path : Path} {offset' : Nat}
    (hf : Follows path owner past during h fd inode offset)
    (hheld : h'.table fd = some ⟨inode, offset', owner⟩)
    (hkind : (h'.files inode).kind = (h.files inode).kind) :
    Follows path owner (past ++ [h']) (during ++ [h']) h' fd inode offset' where
  held := hheld
  since := List.suffix_append_self_iff.mpr hf.since
  opened := by
    obtain ⟨first, rest, rfl, hpath⟩ := hf.opened
    exact ⟨first, rest ++ [h'], rfl, hpath⟩
  kinds := by
    intro g hg
    obtain hold | hnew := List.mem_append.mp hg
    · rw [hkind]
      exact hf.kinds g hold
    · rw [List.mem_singleton.mp hnew]

theorem Follows.keep {path : Path} (hf : Follows path owner past during h fd inode offset)
    (hk : h.Keeps owner h') :
    Follows path owner (past ++ [h']) (during ++ [h']) h' fd inode offset :=
  hf.append ((hk.descriptors fd _ rfl).mpr hf.held) (hk.kinds fd _ rfl hf.held)

theorem Gathered.mono {during' : List (Host Path Inode Owner)} {data : List UInt8}
    (hg : Gathered inode during data) (hsub : during ⊆ during') : Gathered inode during' data := by
  intro k byte hbyte
  obtain ⟨g, hmem, hcontent⟩ := hg k byte hbyte
  exact ⟨g, hsub hmem, hcontent⟩

theorem Follows.regular {path : Path} {p : Policy ε} (hf : Follows path owner past during h fd inode offset)
    (hc : Checked p inode during) : (h.files inode).kind = .regular := by
  obtain ⟨first, rest, rfl, -⟩ := hf.opened
  rw [← hf.kinds first List.mem_cons_self]
  exact hc.regular first List.mem_cons_self

theorem Checked.append {path : Path} {p : Policy ε} {past' : List (Host Path Inode Owner)} {offset' : Nat}
    (hc : Checked p inode during) (hregular : (h.files inode).kind = .regular)
    (hf : Follows path owner past' (during ++ [h']) h' fd inode offset')
    (hkind : (h'.files inode).kind = (h.files inode).kind) : Checked p inode (during ++ [h']) where
  regular := by
    intro g hg
    rw [hf.kinds g hg, hkind, hregular]
  sized := by
    intro max e hlimit
    obtain ⟨g, hg, hsize⟩ := hc.sized max e hlimit
    exact ⟨g, List.mem_append_left _ hg, hsize⟩

theorem Checked.keep {path : Path} {p : Policy ε} (hc : Checked p inode during)
    (hf : Follows path owner past during h fd inode offset) (hk : h.Keeps owner h') :
    Checked p inode (during ++ [h']) :=
  hc.append (hf.regular hc) (hf.keep hk) (hk.kinds fd _ rfl hf.held)

theorem Snapshot.keep {data : List UInt8} (hsnap : Snapshot job inode during data)
    (hf : Follows job.path owner past during h fd inode offset) (hk : h.Keeps owner h') :
    Snapshot job inode (during ++ [h']) data where
  opened := (hf.keep hk).opened
  checked := hsnap.checked.keep hf hk
  gathered := hsnap.gathered.mono (List.subset_append_left _ _)
  whole := by
    obtain ⟨g, hg, hwhole⟩ := hsnap.whole
    exact ⟨g, List.mem_append_left _ hg, hwhole⟩

theorem Refused.keep {e : ε} (hr : Refused job inode during e)
    (hf : Follows job.path owner past during h fd inode offset) (hk : h.Keeps owner h') :
    Refused job inode (during ++ [h']) e := by
  cases hr with
  | notRegular ho hkind =>
    obtain ⟨first, rest, rfl, -⟩ := ho
    refine .notRegular (hf.keep hk).opened fun g hg => ?_
    rw [(hf.keep hk).kinds g hg, hk.kinds fd _ rfl hf.held, ← hf.kinds first List.mem_cons_self]
    exact hkind first List.mem_cons_self
  | tooLarge ho hlimit hsize =>
    obtain ⟨g, hg, hsize⟩ := hsize
    exact .tooLarge (hf.keep hk).opened hlimit ⟨g, List.mem_append_left _ hg, hsize⟩
  | empty hempty hsnap => exact .empty hempty (hsnap.keep hf hk)

theorem infix_append {l past : List (Host Path Inode Owner)} (hl : l <:+: past) : l <:+: past ++ [h'] :=
  hl.trans (List.prefix_append _ _).isInfix

/-- What is known of a reader stays known while others act. -/
theorem Stands.keep (hs : Stands job sys owner past h stage) (hk : h.Keeps owner h') :
    Stands job sys owner (past ++ [h']) h' stage := by
  match stage with
  | .opening => trivial
  | .checking fd =>
    obtain ⟨during, inode, hf⟩ := hs
    exact ⟨_, _, hf.keep hk⟩
  | .reading fd chunks =>
    obtain ⟨during, inode, hf, hc, hg⟩ := hs
    exact ⟨_, _, hf.keep hk, hc.keep hf hk, hg.mono (List.subset_append_left _ _)⟩
  | .closing fd (.ok data) =>
    obtain ⟨during, inode, offset, hf, hsnap⟩ := hs
    exact ⟨_, _, _, hf.keep hk, hsnap.keep hf hk⟩
  | .closing fd (.error e) =>
    obtain ⟨during, inode, offset, hf, hrefused⟩ := hs
    exact ⟨_, _, _, hf.keep hk, hrefused.imp_right fun hrefused => hrefused.keep hf hk⟩
  | .ended (.ok data) =>
    obtain ⟨during, inode, hduring, hsnap⟩ := hs
    exact ⟨_, _, infix_append hduring, hsnap⟩
  | .ended (.error e) =>
    refine hs.imp_right ?_
    rintro ⟨during, inode, hduring, hrefused⟩
    exact ⟨_, _, infix_append hduring, hrefused⟩

/-! ## Steps -/

theorem Policy.check_ok {p : Policy ε} {kind : FileKind} {size : Nat} (hcheck : p.check kind size = .ok ()) :
    kind = .regular ∧ ∀ max e, p.limit = some (max, e) → size ≤ max := by
  unfold Policy.check at hcheck
  split at hcheck
  · cases hcheck
  · next hkind =>
    refine ⟨not_not.mp hkind, fun max e hlimit => ?_⟩
    rw [hlimit] at hcheck
    dsimp only at hcheck
    split at hcheck
    · cases hcheck
    · next hsize => exact Nat.not_lt.mp hsize

theorem Policy.check_error {p : Policy ε} {kind : FileKind} {size : Nat} {e : ε}
    (hcheck : p.check kind size = .error e) :
    (e = p.notRegular ∧ kind ≠ .regular) ∨ ∃ max, p.limit = some (max, e) ∧ max < size := by
  unfold Policy.check at hcheck
  split at hcheck
  · next hkind =>
    cases hcheck
    exact .inl ⟨rfl, hkind⟩
  · split at hcheck
    · next max e' hlimit =>
      split at hcheck
      · next hsize =>
        cases hcheck
        exact .inr ⟨max, hlimit, hsize⟩
      · cases hcheck
    · cases hcheck

theorem Follows.of_opens {path : Path} (ho : h.Opens owner path fd h') :
    ∃ inode, Follows path owner (past ++ [h']) [h'] h' fd inode 0 := by
  obtain ⟨-, inode, hpath, rfl⟩ := ho
  refine ⟨inode, Function.update_self .., ⟨past, rfl⟩, ⟨_, [], rfl, hpath⟩, fun g hg => ?_⟩
  rw [List.mem_singleton.mp hg]

theorem Follows.of_reads {path : Path} (hf : Follows path owner past during h fd inode offset)
    {count : Option Nat} {chunk : List UInt8} (hr : h.Reads fd count chunk h') :
    Follows path owner (past ++ [h']) (during ++ [h']) h' fd inode (offset + chunk.length) ∧
      h'.files = h.files ∧
      ((h.files inode).kind = .regular → Host.IsChunk (h.files inode).bytes offset chunk) := by
  obtain ⟨d, hd, -, hchunk, rfl⟩ := hr
  obtain rfl : ⟨inode, offset, owner⟩ = d := Option.some.inj (hf.held.symm.trans hd)
  exact ⟨hf.append (Function.update_self ..) rfl, rfl, hchunk⟩

theorem Gathered.append {data chunk : List UInt8} (hg : Gathered inode during data)
    (hchunk : Host.IsChunk (h'.files inode).bytes data.length chunk) :
    Gathered inode (during ++ [h']) (data ++ chunk) := by
  intro k byte hbyte
  by_cases hk : k < data.length
  · rw [List.getElem?_append_left hk] at hbyte
    obtain ⟨g, hmem, hcontent⟩ := hg k byte hbyte
    exact ⟨g, List.mem_append_left _ hmem, hcontent⟩
  · rw [List.getElem?_append_right (Nat.not_lt.mp hk)] at hbyte
    refine ⟨h', List.mem_append_right _ (List.mem_singleton.mpr rfl), ?_⟩
    obtain ⟨rest, hrest⟩ := hchunk.1
    have hlt : k - data.length < chunk.length := (List.getElem?_eq_some_iff.mp hbyte).1
    have hdrop : ((h'.files inode).bytes.drop data.length)[k - data.length]? = some byte := by
      rw [← hrest, List.getElem?_append_left hlt]
      exact hbyte
    rw [List.getElem?_drop, Nat.add_sub_cancel' (Nat.not_lt.mp hk)] at hdrop
    exact hdrop

theorem stands_afterCheck (hf : Follows job.path owner past during h fd inode 0) {kind : FileKind}
    {size : Nat} (hs : h.Stats fd kind size) :
    Stands job sys owner (past ++ [h]) h (job.policy.afterCheck fd kind size) := by
  obtain ⟨d, hd, rfl, rfl⟩ := hs
  obtain rfl : ⟨inode, 0, owner⟩ = d := Option.some.inj (hf.held.symm.trans hd)
  have hkept := hf.keep (.refl owner h)
  have hnow : h ∈ during ++ [h] := List.mem_append_right _ (List.mem_singleton.mpr rfl)
  unfold Policy.afterCheck
  cases hcheck : job.policy.check (h.files inode).kind (h.files inode).bytes.length with
  | ok _ =>
    obtain ⟨hkind, hsize⟩ := Policy.check_ok hcheck
    refine ⟨_, _, hkept, ⟨fun g hg => ?_, fun max e hlimit => ⟨h, hnow, hsize max e hlimit⟩⟩, ?_⟩
    · rw [hkept.kinds g hg, hkind]
    · intro k byte hbyte
      cases hbyte
  | error e =>
    refine ⟨_, _, _, hkept, .inr ?_⟩
    obtain ⟨rfl, hkind⟩ | ⟨max, hlimit, hsize⟩ := Policy.check_error hcheck
    · refine .notRegular hkept.opened fun g hg => ?_
      rw [hkept.kinds g hg]
      exact hkind
    · exact .tooLarge hkept.opened hlimit ⟨h, hnow, hsize⟩

theorem stands_afterRead {chunks : List (List UInt8)} {chunk : List UInt8}
    (hf : Follows job.path owner past during h fd inode chunks.flatten.length)
    (hc : Checked job.policy inode during) (hg : Gathered inode during chunks.flatten)
    (hr : h.Reads fd job.policy.count chunk h') :
    Stands job sys owner (past ++ [h']) h' (afterRead fd chunks chunk) := by
  obtain ⟨hkept, hfiles, hchunk⟩ := hf.of_reads hr
  have hregular := hf.regular hc
  have hnow : h' ∈ during ++ [h'] := List.mem_append_right _ (List.mem_singleton.mpr rfl)
  have hchecked : Checked job.policy inode (during ++ [h']) := hc.append hregular hkept (by rw [hfiles])
  have hchunk := hchunk hregular
  rw [← hfiles] at hchunk
  unfold afterRead
  split
  · next hempty =>
    obtain rfl := List.isEmpty_iff.mp hempty
    exact ⟨_, _, _, hkept, hkept.opened, hchecked, hg.mono (List.subset_append_left _ _), h', hnow,
      hchunk.2 rfl⟩
  · refine ⟨_, _, ?_, hchecked, ?_⟩
    · rw [List.flatten_append, List.flatten_singleton, List.length_append]
      exact hkept
    · rw [List.flatten_append, List.flatten_singleton]
      exact hg.append hchunk

theorem stands_finish {data : List UInt8} (hduring : during <:+: past)
    (hsnap : Snapshot job inode during data) :
    Stands job sys owner past h (.ended (job.policy.finish data)) := by
  unfold Policy.finish
  cases hempty : job.policy.empty with
  | none =>
    refine ⟨_, _, hduring, hsnap, fun hsome => ?_⟩
    rw [hempty] at hsome
    cases hsome
  | some e =>
    dsimp only
    split
    · next hnil =>
      obtain rfl := List.isEmpty_iff.mp hnil
      exact .inr ⟨_, _, hduring, .empty hempty hsnap⟩
    · next hnil =>
      exact ⟨_, _, hduring, hsnap, fun _ heq => hnil (List.isEmpty_iff.mpr heq)⟩

/-- A step of the reader itself. -/
theorem Step.stands (hstep : Step job sys owner h stage h' stage') (hs : Stands job sys owner past h stage) :
    Stands job sys owner (past ++ [h']) h' stage' := by
  cases hstep with
  | notOpened he => exact .inl he
  | opened ho =>
    obtain ⟨inode, hf⟩ := Follows.of_opens ho
    exact ⟨_, inode, hf⟩
  | notChecked he =>
    obtain ⟨during, inode, hf⟩ := hs
    exact ⟨_, _, _, hf.keep (.refl owner h), .inl he⟩
  | checked hstats =>
    obtain ⟨during, inode, hf⟩ := hs
    exact stands_afterCheck hf hstats
  | notRead he =>
    obtain ⟨during, inode, hf, -⟩ := hs
    exact ⟨_, _, _, hf.keep (.refl owner h), .inl he⟩
  | read hr =>
    obtain ⟨during, inode, hf, hc, hg⟩ := hs
    exact stands_afterRead hf hc hg hr
  | @closed fd ended =>
    cases ended with
    | ok data =>
      obtain ⟨during, inode, offset, hf, hsnap⟩ := hs
      exact stands_finish (infix_append hf.since.isInfix) hsnap
    | error e =>
      obtain ⟨during, inode, offset, hf, hrefused⟩ := hs
      exact hrefused.imp_right fun hrefused => ⟨_, _, infix_append hf.since.isInfix, hrefused⟩
  | notClosed he => exact .inl he

theorem Stands.held (hs : Stands job sys owner past h stage) (hfd : stage.fd = some fd) :
    ∃ d, h.table fd = some d ∧ d.owner = owner := by
  match stage with
  | .opening | .ended _ => cases hfd
  | .checking fd =>
    cases hfd
    obtain ⟨during, inode, hf⟩ := hs
    exact ⟨_, hf.held, rfl⟩
  | .reading fd chunks =>
    cases hfd
    obtain ⟨during, inode, hf, -⟩ := hs
    exact ⟨_, hf.held, rfl⟩
  | .closing fd (.ok data) =>
    cases hfd
    obtain ⟨during, inode, offset, hf, -⟩ := hs
    exact ⟨_, hf.held, rfl⟩
  | .closing fd (.error e) =>
    cases hfd
    obtain ⟨during, inode, offset, hf, -⟩ := hs
    exact ⟨_, hf.held, rfl⟩

theorem Stands.owner_ne (hs : Stands job sys owner past h stage) (hfd : stage.fd = some fd)
    {other : Owner} (hne : owner ≠ other) : ∀ d, h.table fd = some d → d.owner ≠ other := by
  intro d hd
  obtain ⟨d', hd', howner⟩ := hs.held hfd
  rw [hd, Option.some.injEq] at hd'
  rw [hd', howner]
  exact hne

/-- A step of one reader is what everybody else may do to the others. -/
theorem Step.keeps (hstep : Step job sys owner h stage h' stage') (hs : Stands job sys owner past h stage)
    {other : Owner} (hne : owner ≠ other) : h.Keeps other h' := by
  cases hstep with
  | notOpened he => exact .refl other h
  | opened ho =>
    obtain ⟨hfree, inode, -, rfl⟩ := ho
    refine Host.keeps_update (fun d hd => ?_) fun d hd => ?_
    · rw [hfree] at hd
      cases hd
    · cases hd
      exact hne
  | notChecked he => exact .refl other h
  | checked hstats => exact .refl other h
  | notRead he => exact .refl other h
  | read hr =>
    obtain ⟨d, hd, -, -, rfl⟩ := hr
    have hothers := hs.owner_ne rfl hne
    refine Host.keeps_update hothers fun d' hd' => ?_
    cases hd'
    exact hothers d hd
  | closed => exact Host.keeps_update (hs.owner_ne rfl hne) fun d hd => by cases hd
  | notClosed he => exact Host.keeps_update (hs.owner_ne rfl hne) fun d hd => by cases hd

theorem Tidy.keep (ht : Tidy owner h stage) (hk : h.Keeps owner h') : Tidy owner h' stage :=
  fun fd d howner hd => ht fd d howner ((hk.descriptors fd d howner).mp hd)

theorem stage_fd_afterCheck (p : Policy ε) (fd : Nat) (kind : FileKind) (size : Nat) :
    (p.afterCheck fd kind size).fd = some fd := by
  unfold Policy.afterCheck
  split <;> rfl

theorem stage_fd_afterRead (fd : Nat) (chunks : List (List UInt8)) (chunk : List UInt8) :
    (afterRead fd chunks chunk : Stage ε).fd = some fd := by
  unfold afterRead
  split <;> rfl

theorem Tidy.update {entry : Option (Description Inode Owner)} (ht : Tidy owner h stage)
    (hstage : stage.fd = none ∨ stage.fd = some fd) (hentry : entry.isSome = true → stage'.fd = some fd) :
    Tidy owner { h with table := Function.update h.table fd entry } stage' := by
  intro fd' d howner hd
  dsimp only at hd
  by_cases heq : fd' = fd
  · rw [heq, Function.update_self] at hd
    rw [heq]
    exact hentry (by rw [hd]; rfl)
  · rw [Function.update_of_ne heq] at hd
    have hfd := ht fd' d howner hd
    obtain hnone | hsome := hstage
    · rw [hnone] at hfd
      cases hfd
    · rw [hsome, Option.some.injEq] at hfd
      exact absurd hfd.symm heq

/-- What a reader has opened it holds or has closed. -/
theorem Step.tidy (hstep : Step job sys owner h stage h' stage') (ht : Tidy owner h stage) :
    Tidy owner h' stage' := by
  cases hstep with
  | notOpened he => exact ht
  | opened ho =>
    obtain ⟨-, inode, -, rfl⟩ := ho
    exact ht.update (.inl rfl) fun _ => rfl
  | notChecked he => exact ht
  | checked hstats =>
    intro fd' d howner hd
    rw [stage_fd_afterCheck]
    exact ht fd' d howner hd
  | notRead he => exact ht
  | read hr =>
    obtain ⟨d, hd, -, -, rfl⟩ := hr
    exact ht.update (.inr rfl) fun _ => stage_fd_afterRead _ _ _
  | closed => exact ht.update (.inr rfl) fun hsome => by cases hsome
  | notClosed he => exact ht.update (.inr rfl) fun hsome => by cases hsome

end Invariant

/-! ## Every run -/

variable [DecidableEq ι] {jobs : ι → Job Path ε} {sys : ε → Prop} {past : List (Shared Path Inode ι)}
  {s : State Path Inode ι ε}

/-- What holds of every reader in every run. -/
theorem Run.stands (hr : Run jobs sys past s) (i : ι) :
    Stands (jobs i) sys (some i) past s.host (s.readers i) ∧ Tidy (some i) s.host (s.readers i) := by
  induction hr generalizing i with
  | start hfree =>
    refine ⟨trivial, fun fd d howner hd => ?_⟩
    rw [hfree fd d hd] at howner
    cases howner
  | @env past s h hr hc ih =>
    have hk : s.host.Keeps (some i) h := hc.keeps rfl
    exact ⟨(ih i).1.keep hk, (ih i).2.keep hk⟩
  | @step past s j h stage hr hs ih =>
    dsimp only
    by_cases heq : i = j
    · subst heq
      rw [Function.update_self]
      exact ⟨hs.stands (ih i).1, hs.tidy (ih i).2⟩
    · rw [Function.update_of_ne heq]
      have hk : s.host.Keeps (some i) h :=
        hs.keeps (ih j).1 fun hsome => heq (Option.some.inj hsome).symm
      exact ⟨(ih i).1.keep hk, (ih i).2.keep hk⟩

/-- A reader that has ended has closed what it opened. -/
theorem Run.released (hr : Run jobs sys past s) {i : ι} {ended : Except ε (List UInt8)}
    (hended : s.readers i = .ended ended) : ∀ fd d, s.host.table fd = some d → d.owner ≠ some i := by
  intro fd d hd howner
  have hfd := (hr.stands i).2 fd d howner hd
  rw [hended] at hfd
  cases hfd

/-- What a reader returns is the content of the file its path led to. -/
theorem Run.returned (hr : Run jobs sys past s) {i : ι} {data : List UInt8}
    (hended : s.readers i = .ended (.ok data)) :
    ∃ during inode, during <:+: past ∧ Snapshot (jobs i) inode during data ∧
      ((jobs i).policy.empty.isSome = true → data ≠ []) := by
  have hs := (hr.stands i).1
  rw [hended] at hs
  exact hs

/-- An exception is the system's, or refuses the file its path led to. -/
theorem Run.refused (hr : Run jobs sys past s) {i : ι} {e : ε} (hended : s.readers i = .ended (.error e)) :
    sys e ∨ ∃ during inode, during <:+: past ∧ Refused (jobs i) inode during e := by
  have hs := (hr.stands i).1
  rw [hended] at hs
  exact hs

end Posix
