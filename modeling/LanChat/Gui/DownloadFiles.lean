import Mathlib.Data.List.AList
import LanChat.Gui.AttachmentFile
import LanChat.Lib.Run

/-!
# What a download does to the files (`AttachmentDownloadAssembler`)

Assemblers are made, moved and destroyed, begin downloads, take chunks and are cancelled, over one
disk; any operation of the file system may fail, but for the removal of a part file.

* `Downloads`: the disk and the assemblers; `kept` are the files that were at the target of a
  `begin` and that no completed download has replaced, `parts` the files that assemblers have made;
* `Received`: what `acceptChunk` does to an assembler and the files, case by case;
* `noLeftover_run`: a part file that is there belongs to a download that goes on;
* `target_untouched`: the kept files are there, unless a rename fails after the target was removed.
-/

namespace LanChat.Gui.Attachments

open EventMachine

/-- A new assembler. -/
def Assembler.new : Assembler where
  outputPath := ""
  partPath := ""
  key := Vector.replicate 32 0
  context := ⟨"", "", "", 0, 0, 0⟩
  nextIndex := 0
  complete := false

/-- An assembler that another one has been made of: its part file has gone along. -/
def Assembler.moved (a : Assembler) : Assembler := { a with partPath := "" }

/-- The disk and the assemblers by their names. -/
structure Downloads where
  disk : Disk
  objects : AList fun _ : ℕ => Assembler
  kept : Disk
  parts : String → Bool

namespace Downloads

/-- What is done to an assembler, with the operations of the file system that fail. -/
inductive Input
  | construct (o : ℕ)
  | begin (o : ℕ) (faults : DiskFaults) (outputPath : String) (key : Key) (context : ChunkContext)
  | acceptChunk (o : ℕ) (faults : DiskFaults) (chunk : TransferChunk) (last : Bool)
  | cancel (o : ℕ)
  | moveConstruct (o other : ℕ)
  | moveAssign (o other : ℕ)
  | destroy (o : ℕ)

/-- No assembler yet, and some files. -/
def start (disk : Disk) : Downloads where
  disk
  objects := ∅
  kept := fun _ => none
  parts := fun _ => false

/-- The file at a path, when there is one, is a part file. -/
def markPart (parts : String → Bool) (path : String) : String → Bool :=
  fun p => parts p || (path != "" && p == path)

/-- The download has completed just now. -/
def completes (a a' : Assembler) : Bool := a'.complete && a.partPath != ""

variable (crypto : Crypto)

/-- One operation; an assembler that is not there does nothing. -/
def step (s : Downloads) : Input → Downloads
  | .construct o =>
    match s.objects.lookup o with
    | some _ => s
    | none => { s with objects := s.objects.insert o .new }
  | .begin o faults outputPath key context =>
    match s.objects.lookup o with
    | none => s
    | some a =>
      let begun := (beginDownload a s.disk faults outputPath key context).2
      { disk := begun.2
        objects := s.objects.insert o begun.1
        kept := setFile s.kept outputPath (s.disk outputPath)
        parts := markPart s.parts begun.1.partPath }
  | .acceptChunk o faults chunk last =>
    match s.objects.lookup o with
    | none => s
    | some a =>
      let received := (Attachments.acceptChunk crypto a s.disk faults chunk last).2
      { disk := received.2
        objects := s.objects.insert o received.1
        kept := if completes a received.1 then setFile s.kept a.outputPath none else s.kept
        parts :=
          if completes a received.1 then fun p => s.parts p && p != a.outputPath
          else markPart s.parts received.1.partPath }
  | .cancel o =>
    match s.objects.lookup o with
    | none => s
    | some a =>
      { s with
        disk := (discardPart a s.disk).2
        objects := s.objects.insert o (discardPart a s.disk).1 }
  | .moveConstruct o other =>
    match s.objects.lookup o, s.objects.lookup other with
    | none, some b => { s with objects := (s.objects.insert other b.moved).insert o b }
    | _, _ => s
  | .moveAssign o other =>
    if o = other then s
    else match s.objects.lookup o, s.objects.lookup other with
    | some a, some b =>
      { s with
        disk := (discardPart a s.disk).2
        objects := (s.objects.insert other b.moved).insert o b }
    | _, _ => s
  | .destroy o =>
    match s.objects.lookup o with
    | none => s
    | some a => { s with disk := (discardPart a s.disk).2, objects := s.objects.erase o }

/-- The target of a `begin` is not the part file of a download that goes on, and its own part file
does not take the place of a target. -/
def pathsApart (s : Downloads) : Input → Bool
  | .begin _ _ outputPath _ _ =>
    (s.kept (partPathFor outputPath)).isNone &&
      s.objects.entries.all fun entry => entry.2.partPath == "" || entry.2.partPath != outputPath
  | _ => true

/-- The rename of the last chunk fails when the target has been removed for it. -/
def losesTarget (s : Downloads) : Input → Bool
  | .acceptChunk o faults chunk _ =>
    (s.objects.lookup o).any fun a =>
      a.partPath != "" && faults.rename && !faults.remove && (s.disk a.outputPath).isSome &&
        chunk.index + 1 == chunkCount a.context
  | _ => false

/-- A file that was at the target of a `begin` is there as it was, as long as no download to this
target has completed. -/
def Untouched (s : Downloads) : Prop :=
  ∀ path file, s.kept path = some file → s.disk path = some file

/-- A part file that an assembler has created belongs to an assembler that goes on with it. -/
def NoLeftover (s : Downloads) : Prop :=
  ∀ path, s.parts path = true → s.disk path ≠ none →
    ∃ o a, s.objects.lookup o = some a ∧ a.partPath = path

end Downloads

/-! ### One operation -/

/-- An assembler that goes on with a download knows where its part file is. -/
def Assembler.Proper (a : Assembler) : Prop :=
  a.partPath ≠ "" → a.partPath = partPathFor a.outputPath ∧ a.complete = false

theorem proper_moved (a : Assembler) : a.moved.Proper := fun h => absurd rfl h

section Operations

variable {a : Assembler} {disk : Disk} {path : String}

theorem setFile_self (file : Option (List UInt8)) : setFile disk path file path = file := if_pos rfl

theorem setFile_ne {other : String} (file : Option (List UInt8)) (hne : other ≠ path) :
    setFile disk path file other = disk other := if_neg hne

theorem discardPart_fst (a : Assembler) (disk : Disk) : (discardPart a disk).1 = a.moved := by
  unfold discardPart Assembler.moved
  split_ifs with hempty
  · rw [← hempty]
  · rfl

/-- The part file is gone, and no other file. -/
theorem discardPart_ne {other : String} (hne : a.partPath = "" ∨ other ≠ a.partPath) :
    (discardPart a disk).2 other = disk other := by
  unfold discardPart
  split_ifs with hempty
  · rfl
  · exact setFile_ne _ (hne.resolve_left hempty)

theorem discardPart_part (hpart : a.partPath ≠ "") : (discardPart a disk).2 a.partPath = none := by
  unfold discardPart
  rw [if_neg hpart]
  exact setFile_self none

/-- What becomes of an assembler and of the files when a chunk comes; the target is only lost under
a condition. -/
inductive Received (loss : Prop) (a : Assembler) (disk : Disk) : Assembler → Disk → Prop
  /-- There is no download. -/
  | idle (hidle : a.partPath = "") : Received loss a disk a disk
  /-- The download ends, and the part file goes. -/
  | dropped {a' : Assembler} {disk' : Disk} (hactive : a.partPath ≠ "") (hpart : a'.partPath = "")
      (hcomplete : a'.complete = a.complete) (hgone : disk' a.partPath = none)
      (hothers : ∀ p, p ≠ a.partPath → disk' p = disk p) : Received loss a disk a' disk'
  /-- The chunk is in the part file. -/
  | stored {a' : Assembler} {disk' : Disk} (hactive : a.partPath ≠ "")
      (hpart : a'.partPath = a.partPath) (houtput : a'.outputPath = a.outputPath)
      (hcomplete : a'.complete = a.complete)
      (hothers : ∀ p, p ≠ a.partPath → disk' p = disk p) : Received loss a disk a' disk'
  /-- The part file takes the place of the target. -/
  | placed {a' : Assembler} {disk' : Disk} (hactive : a.partPath ≠ "") (hpart : a'.partPath = "")
      (hcomplete : a'.complete = true) (hgone : disk' a.partPath = none)
      (hothers : ∀ p, p ≠ a.partPath → p ≠ a.outputPath → disk' p = disk p) :
      Received loss a disk a' disk'
  /-- The target has been removed, and the part file does not take its place. -/
  | lost {a' : Assembler} {disk' : Disk} (hloss : loss) (hactive : a.partPath ≠ "")
      (hpart : a'.partPath = "") (hcomplete : a'.complete = a.complete)
      (hgone : disk' a.partPath = none) (hlost : disk' a.outputPath = none)
      (hothers : ∀ p, p ≠ a.partPath → p ≠ a.outputPath → disk' p = disk p) :
      Received loss a disk a' disk'

variable {loss : Prop} {faults : DiskFaults}

theorem received_fail (hactive : a.partPath ≠ "") {b : Assembler} {disk' : Disk}
    (hpart : b.partPath = a.partPath) (hcomplete : b.complete = a.complete)
    (hothers : ∀ p, p ≠ a.partPath → disk' p = disk p) (reason : String) :
    Received loss a disk (fail b disk' reason).2.1 (fail b disk' reason).2.2 := by
  have hb : b.partPath ≠ "" := hpart ▸ hactive
  unfold fail
  rw [discardPart_fst]
  refine .dropped hactive rfl hcomplete ?_ fun p hp => ?_
  · rw [← hpart]
    exact discardPart_part hb
  · rw [discardPart_ne (.inr (hpart ▸ hp))]
    exact hothers p hp

/-- A part file that is complete takes the place of the target; or the target is as it was; or the
rename fails after the target was removed. -/
theorem received_finalize (hactive : a.partPath ≠ "") (hapart : a.partPath ≠ a.outputPath)
    {b : Assembler} {disk' : Disk} (hpart : b.partPath = a.partPath)
    (houtput : b.outputPath = a.outputPath) (hcomplete : b.complete = a.complete)
    (hfile : disk' a.partPath ≠ none) (hothers : ∀ p, p ≠ a.partPath → disk' p = disk p)
    (hloss : faults.rename = true → faults.remove = false → disk a.outputPath ≠ none → loss) :
    Received loss a disk (finalize b disk' faults).2.1 (finalize b disk' faults).2.2 := by
  have htarget : disk' a.outputPath = disk a.outputPath := hothers _ hapart.symm
  unfold finalize
  rw [hpart, houtput]
  dsimp only
  split_ifs with hkept hrename
  · exact received_fail hactive hpart hcomplete hothers _
  · have hthere : setFile disk' a.outputPath none a.partPath = disk' a.partPath :=
      setFile_ne none hapart
    rw [hthere, Bool.or_eq_true, Option.isNone_iff_eq_none] at hrename
    have hfault : faults.rename = true := hrename.resolve_right hfile
    by_cases hnone : disk a.outputPath = none
    · -- there was no target
      refine received_fail hactive hpart hcomplete (fun p hp => ?_) _
      by_cases hp' : p = a.outputPath
      · rw [hp', setFile_self, hnone]
      · rw [setFile_ne none hp']
        exact hothers p hp
    · have hremove : faults.remove = false := by
        rw [htarget, Bool.and_eq_true, not_and, Bool.not_eq_true] at hkept
        exact hkept (Option.isSome_iff_ne_none.2 hnone)
      have hb : b.partPath ≠ "" := hpart ▸ hactive
      unfold fail
      rw [discardPart_fst]
      refine .lost (hloss hfault hremove hnone) hactive rfl hcomplete ?_ ?_ fun p hp hp' => ?_
      · rw [← hpart]
        exact discardPart_part hb
      · rw [discardPart_ne (.inr (hpart ▸ hapart.symm))]
        exact setFile_self none
      · rw [discardPart_ne (.inr (hpart ▸ hp)), setFile_ne none hp']
        exact hothers p hp
  · refine .placed hactive rfl rfl (setFile_self none) fun p hp hp' => ?_
    dsimp only
    rw [setFile_ne none hp, setFile_ne _ hp', setFile_ne none hp']
    exact hothers p hp

variable (crypto : Crypto)

theorem received_acceptChunk (hapart : a.partPath ≠ "" → a.partPath ≠ a.outputPath)
    (faults : DiskFaults) (chunk : TransferChunk) (last : Bool) :
    Received (a.partPath ≠ "" ∧ faults.rename = true ∧ faults.remove = false ∧
        disk a.outputPath ≠ none ∧ chunk.index + 1 = chunkCount a.context) a disk
      (acceptChunk crypto a disk faults chunk last).2.1
      (acceptChunk crypto a disk faults chunk last).2.2 := by
  unfold acceptChunk
  by_cases hidle : a.partPath = ""
  · rw [if_pos hidle]
    exact .idle hidle
  rw [if_neg hidle]
  have hfail : ∀ reason, Received (a.partPath ≠ "" ∧ faults.rename = true ∧
      faults.remove = false ∧ disk a.outputPath ≠ none ∧ chunk.index + 1 = chunkCount a.context)
        a disk (fail a disk reason).2.1 (fail a disk reason).2.2 :=
    received_fail hidle rfl rfl fun _ _ => rfl
  by_cases hbad : chunk.index ≠ a.nextIndex ∨ chunk.ciphertext = [] ∨
      chunk.cipherSha256.utf8ByteSize ≠ 64
  · rw [if_pos hbad]
    exact hfail _
  rw [if_neg hbad]
  by_cases hdigest : crypto.sha256Hex chunk.ciphertext ≠ GoStrings.asciiLower chunk.cipherSha256
  · rw [if_pos hdigest]
    exact hfail _
  rw [if_neg hdigest]
  dsimp only
  split
  · exact hfail _
  split
  · exact hfail _
  split_ifs with hlength hwrite hmarker hlast
  · exact hfail _
  · exact hfail _
  · exact received_fail hidle rfl rfl (fun p hp => setFile_ne _ hp) _
  · -- the last chunk
    refine received_finalize hidle (hapart hidle) rfl rfl rfl ?_ (fun p hp => setFile_ne _ hp)
      fun hrename hremove htarget =>
        ⟨hidle, hrename, hremove, htarget, of_decide_eq_true hlast⟩
    rw [setFile_self]
    exact Option.some_ne_none _
  · exact .stored hidle rfl rfl rfl fun p hp => setFile_ne _ hp

/-- What becomes of an assembler and of the files when it begins a download. -/
structure Begun (a : Assembler) (disk : Disk) (outputPath : String) (a' : Assembler)
    (disk' : Disk) : Prop where
  part : a'.partPath = "" ∨ (a'.partPath = partPathFor outputPath ∧ a'.outputPath = outputPath)
  complete : a'.complete = false
  gone : a.partPath ≠ "" → a'.partPath ≠ a.partPath → disk' a.partPath = none
  others : ∀ p, (a.partPath = "" ∨ p ≠ a.partPath) → p ≠ partPathFor outputPath →
    disk' p = disk p
  target : (a.partPath = "" ∨ partPathFor outputPath ≠ a.partPath) →
    a'.partPath ≠ partPathFor outputPath → disk' (partPathFor outputPath) ≠ none →
      disk (partPathFor outputPath) ≠ none

theorem begun_beginDownload (a : Assembler) (disk : Disk) (faults : DiskFaults)
    (outputPath : String) (key : Key) (context : ChunkContext) :
    Begun a disk outputPath (beginDownload a disk faults outputPath key context).2.1
      (beginDownload a disk faults outputPath key context).2.2 := by
  unfold beginDownload
  rw [show discardPart a disk = (a.moved, (discardPart a disk).2) from
    Prod.ext (discardPart_fst a disk) rfl]
  dsimp only
  split_ifs
  · exact ⟨.inl rfl, rfl, fun hpart _ => discardPart_part hpart, fun p hp _ => discardPart_ne hp,
      fun hp _ hthere => by rwa [discardPart_ne hp] at hthere⟩
  · refine ⟨.inl rfl, rfl, fun hpart _ => ?_, fun p hp hp' => ?_, fun _ _ hthere => ?_⟩
    · by_cases hsame : a.partPath = partPathFor outputPath
      · rw [hsame]
        exact setFile_self none
      · exact (setFile_ne none hsame).trans (discardPart_part hpart)
    · exact (setFile_ne none hp').trans (discardPart_ne hp)
    · exact absurd (setFile_self none) hthere
  · refine ⟨.inr ⟨rfl, rfl⟩, rfl, fun hpart hne => ?_, fun p hp hp' => ?_, fun _ hne => ?_⟩
    · exact (setFile_ne _ (Ne.symm hne)).trans (discardPart_part hpart)
    · exact (setFile_ne _ hp').trans (discardPart_ne hp)
    · exact absurd rfl hne

theorem Begun.proper {a' : Assembler} {disk' : Disk} {outputPath : String}
    (hb : Begun a disk outputPath a' disk') : a'.Proper := by
  intro hactive
  obtain ⟨hpart, houtput⟩ := hb.part.resolve_left hactive
  exact ⟨by rw [hpart, houtput], hb.complete⟩

end Operations

namespace Downloads

variable {s t : Downloads} {o : ℕ} {a a' : Assembler}

/-! ### Part files -/

/-- Every part file has an assembler that goes on with it. -/
structure Owned (s : Downloads) : Prop where
  proper : ∀ o a, s.objects.lookup o = some a → a.Proper
  named : s.parts "" = false
  owner : NoLeftover s

theorem owned_start (disk : Disk) : Owned (start disk) :=
  ⟨fun _ _ ha => (by cases ha), rfl, fun _ hpart => (by cases hpart)⟩

/-- An assembler changes: the part file that it gives up is gone, and it creates no other file than
its part file. -/
theorem Owned.update (hs : Owned s) (ha : s.objects.lookup o = some a) (hproper : a'.Proper)
    (hobjects : t.objects = s.objects.insert o a') (hnamed : t.parts "" = false)
    (hparts : ∀ p, t.parts p = true → p ≠ a'.partPath → s.parts p = true)
    (hgone : a.partPath ≠ "" → a'.partPath ≠ a.partPath → t.disk a.partPath = none)
    (hothers : ∀ p, t.parts p = true → p ≠ a.partPath → p ≠ a'.partPath → t.disk p ≠ none →
      s.disk p ≠ none) : Owned t := by
  refine ⟨fun i b hb => ?_, hnamed, fun p hpart hthere => ?_⟩
  · rw [hobjects] at hb
    by_cases hi : i = o
    · subst hi
      rw [AList.lookup_insert] at hb
      cases hb
      exact hproper
    · rw [AList.lookup_insert_ne hi] at hb
      exact hs.proper i b hb
  rw [hobjects]
  by_cases hnew : p = a'.partPath
  · exact ⟨o, a', AList.lookup_insert _, hnew.symm⟩
  have hold := hparts p hpart hnew
  by_cases hmine : p = a.partPath
  · have hne : a.partPath ≠ "" := by
      intro hempty
      rw [hmine, hempty, hs.named] at hold
      cases hold
    rw [hmine] at hthere hnew
    exact absurd (hgone hne (Ne.symm hnew)) hthere
  · obtain ⟨i, b, hb, hbpart⟩ := hs.owner p hold (hothers p hpart hmine hnew hthere)
    refine ⟨i, b, ?_, hbpart⟩
    rw [AList.lookup_insert_ne]
    · exact hb
    · rintro rfl
      rw [ha] at hb
      cases hb
      exact hmine hbpart.symm

theorem markPart_named {parts : String → Bool} (hnamed : parts "" = false) (path : String) :
    markPart parts path "" = false := by
  unfold markPart
  rw [hnamed, Bool.false_or]
  cases hpath : path == "" with
  | true => rw [beq_iff_eq.1 hpath]; rfl
  | false => simp_all

theorem of_markPart {parts : String → Bool} {path p : String} (hmark : markPart parts path p = true)
    (hne : p ≠ path) : parts p = true := by
  unfold markPart at hmark
  rw [Bool.or_eq_true, Bool.and_eq_true, beq_iff_eq] at hmark
  exact hmark.resolve_right fun h => hne h.2

/-- A part file is given up and removed. -/
theorem Owned.discard (hs : Owned s) (ha : s.objects.lookup o = some a) :
    Owned { s with disk := (discardPart a s.disk).2, objects := s.objects.insert o a.moved } := by
  exact hs.update ha (proper_moved a) rfl hs.named (fun _ hp _ => hp)
    (fun hpart _ => discardPart_part hpart) fun p _ hp _ hthere hnone =>
      hthere ((discardPart_ne (.inr hp)).trans hnone)

/-- An assembler without a part file takes over what another one has. -/
theorem Owned.transfer (hs : Owned s) {other : ℕ} {b : Assembler}
    (hidle : ∀ a, s.objects.lookup o = some a → a.partPath = "")
    (hb : s.objects.lookup other = some b) (hdisk : t.disk = s.disk) (hparts : t.parts = s.parts)
    (ho : t.objects.lookup o = some b) (hother : t.objects.lookup other = some b.moved)
    (hrest : ∀ i, i ≠ o → i ≠ other → t.objects.lookup i = s.objects.lookup i) : Owned t := by
  refine ⟨fun i a ha => ?_, by rw [hparts]; exact hs.named, fun p hpart hthere => ?_⟩
  · by_cases hi : i = o
    · rw [hi, ho] at ha
      cases ha
      exact hs.proper other b hb
    by_cases hi' : i = other
    · rw [hi', hother] at ha
      cases ha
      exact proper_moved b
    · exact hs.proper i a ((hrest i hi hi').symm.trans ha)
  rw [hparts] at hpart
  rw [hdisk] at hthere
  obtain ⟨i, a, ha, hap⟩ := hs.owner p hpart hthere
  have hne : i ≠ o := by
    rintro rfl
    rw [← hap, hidle a ha, hs.named] at hpart
    cases hpart
  by_cases hi : i = other
  · subst hi
    rw [hb] at ha
    cases ha
    exact ⟨o, b, ho, hap⟩
  · exact ⟨i, a, (hrest i hne hi).trans ha, hap⟩

theorem lookup_moved (objects : AList fun _ : ℕ => Assembler) (o other : ℕ) (b c : Assembler)
    {i : ℕ} (ho : i ≠ o) (hother : i ≠ other) :
    ((objects.insert other c).insert o b).lookup i = objects.lookup i := by
  rw [AList.lookup_insert_ne ho, AList.lookup_insert_ne hother]

theorem lookup_moved_other (objects : AList fun _ : ℕ => Assembler) {o other : ℕ} (b c : Assembler)
    (hne : other ≠ o) : ((objects.insert other c).insert o b).lookup other = some c := by
  rw [AList.lookup_insert_ne hne, AList.lookup_insert]

/-- A chunk comes to an assembler. -/
theorem Owned.receive (hs : Owned s) (ha : s.objects.lookup o = some a) {loss : Prop} {disk' : Disk}
    (hr : Received loss a s.disk a' disk') :
    Owned { disk := disk'
            objects := s.objects.insert o a'
            kept := if completes a a' then setFile s.kept a.outputPath none else s.kept
            parts := if completes a a' then fun p => s.parts p && p != a.outputPath
              else markPart s.parts a'.partPath } := by
  have hproper := hs.proper o a ha
  have hsame : a'.complete = a.complete → a.partPath ≠ "" → completes a a' = false := by
    intro hcomplete hactive
    unfold completes
    rw [hcomplete, (hproper hactive).2, Bool.false_and]
  cases hr with
  | idle hidle =>
    have hnone : completes a a = false := by
      unfold completes
      rw [hidle, bne_self_eq_false, Bool.and_false]
    rw [hnone]
    exact hs.update ha hproper rfl (markPart_named hs.named _) (fun p hp hne => of_markPart hp hne)
      (fun hactive _ => absurd hidle hactive) fun _ _ _ _ hthere => hthere
  | dropped hactive hpart hcomplete hgone hothers =>
    rw [hsame hcomplete hactive]
    exact hs.update ha (fun h => absurd hpart h) rfl (markPart_named hs.named _)
      (fun p hp hne => of_markPart hp hne) (fun _ _ => hgone)
      fun p _ hp _ hthere hnone => hthere ((hothers p hp).trans hnone)
  | stored hactive hpart houtput hcomplete hothers =>
    rw [hsame hcomplete hactive]
    refine hs.update ha (fun _ => ?_) rfl (markPart_named hs.named _)
      (fun p hp hne => of_markPart hp hne) (fun _ hne => absurd hpart hne)
      fun p _ hp _ hthere hnone => hthere ((hothers p hp).trans hnone)
    rw [hpart, houtput, hcomplete]
    exact hproper hactive
  | placed hactive hpart hcomplete hgone hothers =>
    have hdone : completes a a' = true := by
      unfold completes
      rw [hcomplete, Bool.true_and, bne_iff_ne]
      exact hactive
    rw [hdone]
    refine hs.update ha (fun h => absurd hpart h) rfl ?_ (fun p hp _ => ?_) (fun _ _ => hgone)
      fun p hp hp' _ hthere hnone => ?_
    · change (s.parts "" && _) = false
      rw [hs.named, Bool.false_and]
    · exact (Bool.and_eq_true_iff.1 hp).1
    · have hout : p ≠ a.outputPath := bne_iff_ne.1 (Bool.and_eq_true_iff.1 hp).2
      exact hthere ((hothers p hp' hout).trans hnone)
  | lost hloss hactive hpart hcomplete hgone hlost hothers =>
    rw [hsame hcomplete hactive]
    refine hs.update ha (fun h => absurd hpart h) rfl (markPart_named hs.named _)
      (fun p hp hne => of_markPart hp hne) (fun _ _ => hgone) fun p _ hp _ hthere hnone => ?_
    have hout : p ≠ a.outputPath := by
      rintro rfl
      exact hthere hlost
    exact hthere ((hothers p hp hout).trans hnone)

theorem owned_step (crypto : Crypto) (s : Downloads) (x : Input) (hs : Owned s) :
    Owned (s.step crypto x) := by
  cases x with
  | construct o =>
    simp only [step]
    split
    · exact hs
    rename_i hnone
    refine ⟨fun i a ha => ?_, hs.named, fun p hpart hthere => ?_⟩
    · by_cases hi : i = o
      · subst hi
        rw [AList.lookup_insert] at ha
        cases ha
        exact fun h => absurd rfl h
      · exact hs.proper i a ((AList.lookup_insert_ne hi).symm.trans ha)
    obtain ⟨i, a, ha, hap⟩ := hs.owner p hpart hthere
    have hne : i ≠ o := by
      rintro rfl
      rw [hnone] at ha
      cases ha
    exact ⟨i, a, (AList.lookup_insert_ne hne).trans ha, hap⟩
  | begin o faults outputPath key context =>
    simp only [step]
    split
    · exact hs
    rename_i a ha
    have hbegun := begun_beginDownload a s.disk faults outputPath key context
    refine hs.update ha hbegun.proper rfl (markPart_named hs.named _)
      (fun p hp hne => of_markPart hp hne) hbegun.gone fun p _ hp hnew hthere => ?_
    by_cases htarget : p = partPathFor outputPath
    · rw [htarget] at hp hnew hthere ⊢
      exact hbegun.target (.inr hp) (Ne.symm hnew) hthere
    · exact fun hnone => hthere ((hbegun.others p (.inr hp) htarget).trans hnone)
  | acceptChunk o faults chunk last =>
    simp only [step]
    split
    · exact hs
    rename_i a ha
    refine hs.receive ha (received_acceptChunk crypto (fun hactive => ?_) faults chunk last)
    rw [(hs.proper o a ha hactive).1]
    exact (partPathFor_ne a.outputPath).1
  | cancel o =>
    simp only [step]
    split
    · exact hs
    rename_i a ha
    rw [discardPart_fst]
    exact hs.discard ha
  | moveConstruct o other =>
    simp only [step]
    split
    · rename_i b hnone hb
      have hother : other ≠ o := by
        rintro rfl
        rw [hnone] at hb
        cases hb
      refine hs.transfer (o := o) (fun a ha => ?_) hb rfl rfl (AList.lookup_insert _)
        (lookup_moved_other _ b _ hother) fun i ho hi => lookup_moved _ o other b _ ho hi
      rw [hnone] at ha
      cases ha
    · exact hs
  | moveAssign o other =>
    simp only [step]
    split_ifs with hsame
    · exact hs
    split
    · rename_i a b ha hb
      have hother : other ≠ o := Ne.symm hsame
      refine (hs.discard ha).transfer (o := o) (fun c hc => ?_)
        ((AList.lookup_insert_ne hother).trans hb) rfl rfl (AList.lookup_insert _)
        (lookup_moved_other _ b _ hother) fun i ho hi =>
          (lookup_moved _ o other b _ ho hi).trans (AList.lookup_insert_ne ho).symm
      rw [AList.lookup_insert] at hc
      cases hc
      rfl
    · exact hs
  | destroy o =>
    simp only [step]
    split
    · exact hs
    rename_i a ha
    have hdiscard := hs.discard ha
    refine ⟨fun i b hb => ?_, hs.named, fun p hpart hthere => ?_⟩
    · by_cases hi : i = o
      · rw [hi, AList.lookup_erase] at hb
        cases hb
      · exact hs.proper i b ((AList.lookup_erase_ne hi).symm.trans hb)
    obtain ⟨i, b, hb, hbp⟩ := hdiscard.owner p hpart hthere
    have hne : i ≠ o := by
      rintro rfl
      rw [AList.lookup_insert] at hb
      cases hb
      rw [← hbp, Assembler.moved, hs.named] at hpart
      cases hpart
    rw [AList.lookup_insert_ne hne] at hb
    exact ⟨i, b, (AList.lookup_erase_ne hne).trans hb, hbp⟩

/-- In every run a part file that is there belongs to a download that goes on. -/
theorem noLeftover_run (crypto : Crypto) (disk : Disk) (xs : List Input) :
    NoLeftover (run (step crypto) (start disk) xs) :=
  (run_invariant (step crypto) (owned_step crypto) (owned_start disk) xs).owner

/-! ### Targets -/

/-- The kept files are there, and no part file of a download is one of them. -/
structure Safe (s : Downloads) : Prop where
  apart : ∀ o a, s.objects.lookup o = some a → a.partPath ≠ "" → s.kept a.partPath = none
  untouched : Untouched s

theorem safe_start (disk : Disk) : Safe (start disk) :=
  ⟨fun _ _ ha => (by cases ha), fun _ _ hkept => (by cases hkept)⟩

/-- An assembler changes, and the kept files are there. -/
theorem Safe.update (hs : Safe s) (hapart : a'.partPath ≠ "" → t.kept a'.partPath = none)
    (hobjects : t.objects = s.objects.insert o a')
    (hkept : ∀ i b, s.objects.lookup i = some b → b.partPath ≠ "" → s.kept b.partPath = none →
      t.kept b.partPath = none) (huntouched : Untouched t) : Safe t := by
  refine ⟨fun i b hb hactive => ?_, huntouched⟩
  rw [hobjects] at hb
  by_cases hi : i = o
  · subst hi
    rw [AList.lookup_insert] at hb
    cases hb
    exact hapart hactive
  · rw [AList.lookup_insert_ne hi] at hb
    exact hkept i b hb hactive (hs.apart i b hb hactive)

/-- A kept file is none that the assembler may remove. -/
theorem Safe.ne_part (hs : Safe s) (ha : s.objects.lookup o = some a) {p : String}
    {file : List UInt8} (hkept : s.kept p = some file) : a.partPath = "" ∨ p ≠ a.partPath := by
  by_cases hactive : a.partPath = ""
  · exact .inl hactive
  · right
    rintro rfl
    rw [hs.apart o a ha hactive] at hkept
    cases hkept

theorem Safe.discard (hs : Safe s) (ha : s.objects.lookup o = some a) :
    Safe { s with disk := (discardPart a s.disk).2, objects := s.objects.insert o a.moved } := by
  refine hs.update (fun h => absurd rfl h) rfl (fun _ _ _ _ hnone => hnone) fun p file hkept => ?_
  exact (discardPart_ne (hs.ne_part ha hkept)).trans (hs.untouched p file hkept)

theorem Safe.begin (hs : Safe s) (ha : s.objects.lookup o = some a) {outputPath : String}
    {disk' : Disk} (hbegun : Begun a s.disk outputPath a' disk')
    (hpart : s.kept (partPathFor outputPath) = none)
    (htarget : ∀ i b, s.objects.lookup i = some b → b.partPath ≠ "" → b.partPath ≠ outputPath) :
    Safe { disk := disk'
           objects := s.objects.insert o a'
           kept := setFile s.kept outputPath (s.disk outputPath)
           parts := markPart s.parts a'.partPath } := by
  have hne : partPathFor outputPath ≠ outputPath := (partPathFor_ne outputPath).1
  refine hs.update (fun hactive => ?_) rfl (fun i b hb hactive hnone => ?_) fun p file hkept => ?_
  · rw [(hbegun.part.resolve_left hactive).1]
    exact (setFile_ne _ hne).trans hpart
  · exact (setFile_ne _ (htarget i b hb hactive)).trans hnone
  · by_cases hp : p = outputPath
    · subst hp
      have hthere : s.disk p = some file := (setFile_self _).symm.trans hkept
      refine (hbegun.others p ?_ hne.symm).trans hthere
      by_cases hidle : a.partPath = ""
      · exact .inl hidle
      · exact .inr (htarget o a ha hidle).symm
    · have hold : s.kept p = some file := (setFile_ne _ hp).symm.trans hkept
      refine (hbegun.others p (hs.ne_part ha hold) ?_).trans (hs.untouched p file hold)
      rintro rfl
      rw [hpart] at hold
      cases hold

/-- A chunk comes, and the target is not lost. -/
theorem Safe.receive (hs : Safe s) (ha : s.objects.lookup o = some a) {loss : Prop}
    {disk' : Disk} (hr : Received loss a s.disk a' disk') (hloss : ¬ loss) {parts : String → Bool} :
    Safe { disk := disk'
           objects := s.objects.insert o a'
           kept := if completes a a' then setFile s.kept a.outputPath none else s.kept
           parts := parts } := by
  have hsub : ∀ p file, (if completes a a' then setFile s.kept a.outputPath none else s.kept) p =
      some file → s.kept p = some file ∧ (completes a a' = true → p ≠ a.outputPath) := by
    intro p file hkept
    split_ifs at hkept with hdone
    · by_cases hp : p = a.outputPath
      · rw [hp, setFile_self] at hkept
        cases hkept
      · exact ⟨(setFile_ne _ hp).symm.trans hkept, fun _ => hp⟩
    · exact ⟨hkept, fun h => absurd h hdone⟩
  have hnone : ∀ {p}, s.kept p = none →
      (if completes a a' then setFile s.kept a.outputPath none else s.kept) p = none := by
    intro p hp
    by_contra hsome
    obtain ⟨file, hfile⟩ := Option.ne_none_iff_exists'.1 hsome
    rw [(hsub p file hfile).1] at hp
    cases hp
  have hapart : a'.partPath ≠ "" → s.kept a'.partPath = none := by
    intro hactive
    cases hr with
    | idle hidle => exact absurd hidle hactive
    | dropped _ hpart => exact absurd hpart hactive
    | stored hold hpart =>
      rw [hpart]
      exact hs.apart o a ha hold
    | placed _ hpart => exact absurd hpart hactive
    | lost h => exact absurd h hloss
  refine hs.update (fun hactive => hnone (hapart hactive)) rfl (fun _ _ _ _ h => hnone h)
    fun p file hkept => ?_
  obtain ⟨hold, hout⟩ := hsub p file hkept
  have hfile := hs.untouched p file hold
  have hne := hs.ne_part ha hold
  cases hr with
  | idle hidle => exact hfile
  | dropped hactive _ _ _ hothers => exact (hothers p (hne.resolve_left hactive)).trans hfile
  | stored hactive _ _ _ hothers => exact (hothers p (hne.resolve_left hactive)).trans hfile
  | placed hactive _ hcomplete _ hothers =>
    have hdone : completes a a' = true := by
      unfold completes
      rw [hcomplete, Bool.true_and, bne_iff_ne]
      exact hactive
    exact (hothers p (hne.resolve_left hactive) (hout hdone)).trans hfile
  | lost h => exact absurd h hloss

/-- A part file that has gone along with its assembler. -/
theorem Safe.apart_moved (hs : Safe s) {i other : ℕ} {b c : Assembler}
    (hb : s.objects.lookup other = some b)
    (hc : ((s.objects.insert other b.moved).insert o b).lookup i = some c)
    (hactive : c.partPath ≠ "") : s.kept c.partPath = none := by
  by_cases hi : i = o
  · rw [hi, AList.lookup_insert] at hc
    cases hc
    exact hs.apart other b hb hactive
  rw [AList.lookup_insert_ne hi] at hc
  by_cases hi' : i = other
  · rw [hi', AList.lookup_insert] at hc
    cases hc
    exact absurd rfl hactive
  · rw [AList.lookup_insert_ne hi'] at hc
    exact hs.apart i c hc hactive

theorem safe_step (crypto : Crypto) (s : Downloads) (x : Input)
    (hx : s.pathsApart x = true ∧ s.losesTarget x = false) (hi : Owned s ∧ Safe s) :
    Owned (s.step crypto x) ∧ Safe (s.step crypto x) := by
  obtain ⟨ho, hs⟩ := hi
  refine ⟨owned_step crypto s x ho, ?_⟩
  cases x with
  | construct o =>
    simp only [step]
    split
    · exact hs
    · exact hs.update (fun h => absurd rfl h) rfl (fun _ _ _ _ h => h) hs.untouched
  | begin o faults outputPath key context =>
    simp only [step]
    split
    · exact hs
    rename_i a ha
    simp only [pathsApart, Bool.and_eq_true, Option.isNone_iff_eq_none, List.all_eq_true,
      Bool.or_eq_true, beq_iff_eq, bne_iff_ne] at hx
    refine hs.begin ha (begun_beginDownload a s.disk faults outputPath key context) hx.1.1
      fun i b hb hactive => ?_
    exact (hx.1.2 ⟨i, b⟩ (AList.mem_lookup_iff.1 hb)).resolve_left hactive
  | acceptChunk o faults chunk last =>
    simp only [step]
    split
    · exact hs
    rename_i a ha
    refine hs.receive ha (received_acceptChunk crypto (fun hactive => ?_) faults chunk last) ?_
    · rw [(ho.proper o a ha hactive).1]
      exact (partPathFor_ne a.outputPath).1
    · rintro ⟨hactive, hrename, hremove, htarget, hlast⟩
      have hlost : s.losesTarget (.acceptChunk o faults chunk last) = true := by
        simp only [losesTarget, ha, Option.any_some, Bool.and_eq_true, bne_iff_ne,
          Bool.not_eq_true', beq_iff_eq]
        exact ⟨⟨⟨⟨hactive, hrename⟩, hremove⟩, Option.isSome_iff_ne_none.2 htarget⟩, hlast⟩
      rw [hx.2] at hlost
      cases hlost
  | cancel o =>
    simp only [step]
    split
    · exact hs
    rename_i a ha
    rw [discardPart_fst]
    exact hs.discard ha
  | moveConstruct o other =>
    simp only [step]
    split
    · rename_i b hnone hb
      refine ⟨fun i c hc hactive => ?_, hs.untouched⟩
      exact hs.apart_moved hb hc hactive
    · exact hs
  | moveAssign o other =>
    simp only [step]
    split_ifs with hsame
    · exact hs
    split
    · rename_i a b ha hb
      refine ⟨fun i c hc hactive => hs.apart_moved hb hc hactive, (hs.discard ha).untouched⟩
    · exact hs
  | destroy o =>
    simp only [step]
    split
    · exact hs
    rename_i a ha
    refine ⟨fun i b hb hactive => ?_, (hs.discard ha).untouched⟩
    by_cases hi : i = o
    · rw [hi, AList.lookup_erase] at hb
      cases hb
    · exact hs.apart i b ((AList.lookup_erase_ne hi).symm.trans hb) hactive

/-- **A download that does not complete leaves its target as it was**, and no part file behind: in
every run no part file stays that no download goes on with, and when the paths are apart and no
rename fails after the removal of the target, every file that was at the target of a `begin` is
there until a download to this target completes. -/
theorem target_untouched (crypto : Crypto) (disk : Disk) (xs : List Input) :
    NoLeftover (run (step crypto) (start disk) xs) ∧
      (Along (step crypto) (fun s x => s.pathsApart x = true ∧ s.losesTarget x = false)
          (start disk) xs →
        Untouched (run (step crypto) (start disk) xs)) :=
  ⟨noLeftover_run crypto disk xs, fun halong => (run_invariant_along (step crypto)
    (safe_step crypto) ⟨owned_start disk, safe_start disk⟩ halong).2.untouched⟩

/-! ### A file of one byte, over an old file -/

/-- The old file is at the path `out`. -/
def oldFile : Disk := fun path => if path = "out" then some [1, 2] else none

/-- The only chunk of a file with the byte 65. -/
def onlyChunk : TransferChunk where
  index := 0
  ciphertext := [107, 136, 234, 108, 33, 123, 201, 89, 200, 119, 0, 106, 77, 54, 234, 173, 171]
  cipherSha256 := "6145b847798a66d0d305a3d4168890eb2b82333165bd2a20370bbce36ce9bc45"

/-- The download moves to another assembler before its chunk comes. -/
def movedDownload (faults : DiskFaults) : List Input :=
  [.construct 0, .begin 0 {} "out" (Vector.replicate 32 0) ⟨"a", "lobby", "g", 1, 48128, 0⟩,
    .moveConstruct 1 0, .acceptChunk 1 faults onlyChunk true]

/-- The old file cannot be removed, and is there. -/
theorem target_untouched_moved :
    NoLeftover (run (step byteCrypto) (start oldFile) (movedDownload { remove := true })) ∧
      Untouched (run (step byteCrypto) (start oldFile) (movedDownload { remove := true })) :=
  ⟨(target_untouched byteCrypto oldFile _).1,
    (target_untouched byteCrypto oldFile (movedDownload { remove := true })).2 (by decide +kernel)⟩

/-- The old file is removed for the new one, whose rename fails: both are gone. -/
theorem target_lost :
    ¬ ∀ (crypto : Crypto) (disk : Disk) (xs : List Input),
      Along (step crypto) (fun s x => s.pathsApart x = true) (start disk) xs →
        Untouched (run (step crypto) (start disk) xs) := by
  intro hclaim
  have hfile := hclaim byteCrypto oldFile (movedDownload { rename := true }) (by decide +kernel)
    "out" [1, 2] (by decide +kernel)
  have hgone : (run (step byteCrypto) (start oldFile) (movedDownload { rename := true })).disk
      "out" = none := by decide +kernel
  rw [hgone] at hfile
  cases hfile

end Downloads

end LanChat.Gui.Attachments
