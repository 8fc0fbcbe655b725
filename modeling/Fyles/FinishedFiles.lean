import Fyles.Internal.Run
import Fyles.PartFileIsolation

/-!
# Where finished files go

`FilerequestDriveHandler::finalize_partial_file` in `core/src/core/filerequest_drive_handler.rs` and
the function of that name in `direct_host_utils/src/direct_fs_controller.rs`. A finished file is
moved to the directory of its filerequest, under its sanitised name or, if there is a file of that
name already, under a variation of it. The caller is told the sanitised name in both cases, and
records it. That the file can be moved is up to the file system: a variation of a long name may be
too long for it.

That a name does not begin with a dot is checked before it is sanitised. On the way to the path a
name is sanitised twice, which is the same as once unless what was cut off leaves a reserved name.

## Main results

* `located_iff` — the records that lead to the file that was received
* `contained_iff` — the names for which all files are put where they belong
-/

namespace Fyles.FinishedFiles

open PartFiles

/-! ### Names -/

variable (z : Sanitizer)

/-- The directory of a filerequest, as `FilerequestDriveHandler::new` chooses it. -/
def safeDirName (id : FylesId) (title : String) : String :=
  if z.sanitize title = "" then id.text else z.sanitize title

/-- `parse_sanitized`. To push an empty name on a path does nothing. -/
def parseSanitized (components : List String) : List String :=
  (components.map z.sanitize).filter (· ≠ "")

/-- `rsplit_once('.')`: what is before the last dot, and what is after it. -/
def rsplitOnce : List Char → Option (List Char × List Char)
  | [] => none
  | c :: name =>
    match rsplitOnce name with
    | some (stem, ext) => some (c :: stem, ext)
    | none => if c = '.' then some ([], name) else none

/-- The candidates of `escalate_existing_path`. -/
def variation (fileName : String) (i : ℕ) : String :=
  match rsplitOnce fileName.toList with
  | some (stem, ext) => .ofList stem ++ "_" ++ toString i ++ "." ++ .ofList ext
  | none => fileName ++ "_" ++ toString i

/-- `escalate_existing_path`. -/
def escalateExistingPath (isFile : List String → Bool) (directory : List String)
    (fileName : String) : Option (List String) :=
  ((List.range 100).map fun i => directory ++ [variation fileName i]).find? (!isFile ·)

/-- A file that was moved. -/
structure Moved where
  /-- Where it is, below the directory of all filerequests. -/
  path : List String
  /-- What the caller is told. -/
  filePath : String

/-- `finalize_partial_file`, where `isFile` says what exists and `moves` where the file system can
move the file to. `validate_partial_basename` accepts every sanitised name. -/
def finalizePartialFile (isFile moves : List String → Bool)
    (dirName partialFilename finalFilename : String) : Option Moved := do
  let _safePartName ← sanitizeFilename z partialFilename
  let safeFinalName ← sanitizeFilename z finalFilename
  let safePath := parseSanitized z [dirName, safeFinalName]
  let filename ← safePath.getLast?
  let target ← (bif isFile safePath then escalateExistingPath isFile safePath.dropLast filename
    else some safePath)
  bif moves target then some ⟨target, safeFinalName⟩ else none

variable {z} {isFile moves : List String → Bool} {moved : Moved}
  {dirName partialFilename finalFilename : String}

theorem of_finalizePartialFile
    (h : finalizePartialFile z isFile moves dirName partialFilename finalFilename = some moved) :
    (sanitizeFilename z partialFilename).isSome ∧
    sanitizeFilename z finalFilename = some moved.filePath ∧ isFile moved.path = false ∧
      let path := parseSanitized z [dirName, moved.filePath]
      (isFile path = false ∧ moved.path = path ∨
        isFile path = true ∧ ∃ name ∈ path.getLast?, ∃ i,
          moved.path = path.dropLast ++ [variation name i]) := by
  simp only [finalizePartialFile, Option.bind_eq_bind, Option.bind_eq_some_iff] at h
  obtain ⟨part, hpart, safe, hsafe, name, hname, path, hpath, h⟩ := h
  rw [Bool.cond_eq_ite, Option.ite_none_right_eq_some] at h
  obtain ⟨-, ⟨⟩⟩ := h
  refine ⟨by rw [hpart]; rfl, hsafe, ?_⟩
  cases hexists : isFile (parseSanitized z [dirName, safe]) with
  | true =>
    rw [hexists, cond_true] at hpath
    have hfree := List.find?_some hpath
    obtain ⟨i, -, hi⟩ := List.mem_map.mp (List.mem_of_find?_eq_some hpath)
    exact ⟨by simpa using hfree, .inr ⟨hexists, name, hname, i, hi.symm⟩⟩
  | false =>
    rw [hexists, cond_false] at hpath
    obtain ⟨⟩ := hpath
    exact ⟨hexists, .inl ⟨hexists, rfl⟩⟩

/-! ### Records -/

/-- A transfer of which everything was received. -/
structure Completion where
  dirName : String
  partFileName : String
  fileName : String
  /-- Where the file system can move the file to. -/
  moves : List String → Bool

/-- The files below the directory of all filerequests, and the transfers that are complete. -/
structure Drop where
  /-- What is at a path: the file of a transfer, or something else. -/
  files : List String → Option (Option ℕ)
  /-- The directory and the recorded path of each transfer. -/
  rows : List (String × String)

/-- Nothing is received yet. -/
def Drop.new (isFile : List String → Bool) : Drop :=
  ⟨fun path => if isFile path then some none else none, []⟩

variable (z)

/-- What becomes of the file of a transfer. -/
def finalized (w : Drop) (c : Completion) : Option Moved :=
  finalizePartialFile z (fun path => (w.files path).isSome) c.moves c.dirName c.partFileName
    c.fileName

/-- The transfer is completed. -/
def complete (w : Drop) (c : Completion) : Option Drop :=
  (finalized z w c).map fun moved =>
    { files := Function.update w.files moved.path (some (some w.rows.length))
      rows := w.rows ++ [(c.dirName, moved.filePath)] }

/-- **Located.** Each record leads to the file of its transfer. -/
def Located (w : Drop) : Prop :=
  ∀ i row, w.rows[i]? = some row → w.files (parseSanitized z [row.1, row.2]) = some (some i)

/-- There is no file of the name that is recorded. -/
def Free (w : Drop) (c : Completion) : Prop :=
  ∀ moved ∈ finalized z w c, w.files (parseSanitized z [c.dirName, moved.filePath]) = none

variable {z} {w w' : Drop} {c : Completion}

theorem Located.nodup (h : Located z w) : w.rows.Nodup := by
  rw [List.nodup_iff_getElem?_ne_getElem?]
  intro i j hij hj heq
  have hrow := List.getElem?_eq_getElem hj
  have hi := h i _ (heq.trans hrow)
  rw [h j _ hrow, Option.some.injEq, Option.some.injEq] at hi
  omega

/-- A file that exists is not overwritten. -/
theorem files_complete (h : complete z w c = some w') {path : List String} {file : Option ℕ}
    (hfile : w.files path = some file) : w'.files path = some file := by
  obtain ⟨moved, hmoved, rfl⟩ := Option.map_eq_some_iff.mp h
  have hfree := (of_finalizePartialFile hmoved).2.2.1
  rw [← hfile]
  refine Function.update_of_ne ?_ _ _
  rintro rfl
  rw [hfile] at hfree
  cases hfree

/-- The files of transfers are those of the transfers that are complete. -/
def Numbered (w : Drop) : Prop := ∀ path i, w.files path = some (some i) → i < w.rows.length

theorem Numbered.complete (hn : Numbered w) (h : complete z w c = some w') : Numbered w' := by
  obtain ⟨moved, -, rfl⟩ := Option.map_eq_some_iff.mp h
  intro path i hi
  rw [List.length_append]
  rcases update_eq_cases hi with ⟨-, hi⟩ | ⟨-, hi⟩
  · obtain rfl := Option.some.inj (Option.some.inj hi)
    exact Nat.lt_succ_self _
  · exact Nat.lt_succ_of_lt (hn path i hi)

theorem located_complete_iff (hn : Numbered w) (hl : Located z w) (h : complete z w c = some w') :
    Located z w' ↔ Free z w c := by
  have hkeeps := @files_complete _ _ _ _ h
  obtain ⟨moved, hmoved, rfl⟩ := Option.map_eq_some_iff.mp h
  constructor
  · rintro hl' moved' hmoved'
    obtain rfl := Option.mem_unique hmoved hmoved'
    have hnew := hl' w.rows.length _ List.getElem?_concat_length
    cases hold : w.files (parseSanitized z [c.dirName, moved.filePath]) with
    | none => rfl
    | some file =>
      rw [hkeeps hold, Option.some.injEq] at hnew
      exact absurd (hn _ _ (hnew ▸ hold)) (lt_irrefl _)
  · intro hok i row hrow
    rcases Nat.lt_or_ge i w.rows.length with hi | hi
    · rw [List.getElem?_append_left hi] at hrow
      exact hkeeps (hl i row hrow)
    · rw [List.getElem?_append_right hi, List.getElem?_singleton] at hrow
      split at hrow
      case isFalse => cases hrow
      case isTrue hzero =>
        obtain ⟨⟩ := hrow
        obtain rfl : i = w.rows.length := by omega
        show Function.update w.files moved.path _ (parseSanitized z [_, _]) = _
        rcases (of_finalizePartialFile hmoved).2.2.2 with ⟨-, hpath⟩ | ⟨hexists, -⟩
        · rw [← hpath, Function.update_self]
        · rw [hok moved hmoved] at hexists
          cases hexists

/-- **Which records lead to their file.** Whatever exists at the beginning, and whatever transfers
are completed: no file is overwritten, and after each transfer all records lead to the files of
their transfers, and differ, if and only if no transfer has found a file of its name. -/
theorem located_iff {cs : List Completion}
    (hrun : (runFrom (complete z) (.new isFile) cs).isSome) :
    (∀ w c w', complete z w c = some w' → ∀ path file, w.files path = some file →
      w'.files path = some file) ∧
    ((∀ pre, pre <+: cs → ∀ w, runFrom (complete z) (.new isFile) pre = some w →
      Located z w ∧ w.rows.Nodup) ↔ Admitted (complete z) (Free z) (.new isFile) cs) := by
  refine ⟨fun _ _ _ h _ _ => files_complete h, ?_⟩
  have hnumbered : Numbered (.new isFile) := by
    intro path i hi
    change (if isFile path then some none else none) = _ at hi
    split at hi <;> cases hi
  have hiff : (∀ pre, pre <+: cs → ∀ w, runFrom (complete z) (.new isFile) pre = some w →
      Located z w) ↔ Admitted (complete z) (Free z) (.new isFile) cs :=
    forall_prefix_iff_admitted (fun hn h => Numbered.complete hn h)
      (fun hn hl h => located_complete_iff hn hl h) hnumbered (by rintro i row ⟨⟩) hrun
  rw [← hiff]
  exact ⟨fun h pre hpre w hw => (h pre hpre w hw).1,
    fun h pre hpre w hw => ⟨h pre hpre w hw, (h pre hpre w hw).nodup⟩⟩

/-- Names of up to 255 bytes are allowed. -/
def shortEnough (path : List String) : Bool :=
  path.all fun name => decide (name.utf8ByteSize ≤ maxNameBytes)

theorem located_first : ∃ w,
    runFrom (complete .sample) (.new fun _ => false) [⟨"album", "part", "a.jpg", shortEnough⟩] =
      some w ∧
    Located .sample w ∧ w.rows.Nodup := by
  have hfree : Admitted (complete .sample) (Free .sample) (.new fun _ => false)
      [⟨"album", "part", "a.jpg", shortEnough⟩] := ⟨fun _ _ => rfl, fun _ _ => trivial⟩
  exact ⟨_, rfl, (located_iff (by decide)).2.mpr hfree _ (List.prefix_refl _) _ rfl⟩

/-- The records of two files of the same name both lead to the first one. -/
theorem recorded_twice : ∃ w,
    runFrom (complete .sample) (.new fun _ => false)
      [⟨"album", "part", "a.jpg", shortEnough⟩, ⟨"album", "other", "a.jpg", shortEnough⟩] =
        some w ∧
    w.rows = [("album", "a.jpg"), ("album", "a.jpg")] ∧
    w.files ["album", "a.jpg"] = some (some 0) ∧ w.files ["album", "a_0.jpg"] = some (some 1) ∧
    ¬ Located .sample w := by
  refine ⟨_, rfl, by decide, by decide, by decide, fun h => ?_⟩
  exact absurd (h 1 _ rfl) (by decide)

/-! ### Containment -/

variable (z) in
/-- A name that a file may have. -/
def Proper (name : String) : Prop :=
  name ≠ "" ∧ z.mainSeparator ∉ name.toList ∧ name.toList.head? ≠ some '.'

/-- To sanitise a name again does nothing, unless long names are cut off. -/
theorem sanitize_sanitize (hz : z.truncate = false) (name : String) :
    z.sanitize (z.sanitize name) = z.sanitize name := by
  simp only [Sanitizer.sanitize, hz, cond_false]
  split <;> simp_all

theorem of_sanitizeFilename {name safe : String} (h : sanitizeFilename z name = some safe) :
    safe = z.sanitize name ∧ safe ≠ "" := by
  rw [sanitizeFilename] at h
  split at h
  · cases h
  · split at h
    · cases h
    · next hne =>
      split at h
      · cases h
      · obtain ⟨⟩ := h
        exact ⟨rfl, hne⟩

theorem of_rsplitOnce {name stem ext : List Char} (h : rsplitOnce name = some (stem, ext)) :
    name = stem ++ '.' :: ext := by
  induction name generalizing stem with
  | nil => cases h
  | cons c name ih =>
    rw [rsplitOnce] at h
    split at h
    case h_1 hrest =>
      obtain ⟨⟩ := h
      exact congrArg _ (ih hrest)
    case h_2 =>
      split at h
      case isFalse => cases h
      case isTrue hc =>
        obtain ⟨⟩ := h
        exact congrArg (· :: ext) hc

/-- Variations of a name that a file may have are such names. -/
theorem Proper.variation {name : String} (h : Proper z name) (i : ℕ) :
    Proper z (variation name i) := by
  obtain ⟨hne, hsep, hdot⟩ := h
  have hkept : ∀ c : Char, c.isAlphanum = true ∨ c = '-' ∨ c = '_' ∨ c = '.' →
      z.mainSeparator ≠ c := by
    rintro c hc rfl
    exact absurd (z.kept _ hc) (by simp [z.reserved_mainSeparator])
  have hdigits : z.mainSeparator ∉ (toString i).toList := fun hmem =>
    hkept _ (.inl (by rw [Char.isAlphanum, isDigit_of_mem_repr hmem, Bool.or_true])) rfl
  rw [Proper, ne_eq, ← String.toList_inj, FinishedFiles.variation]
  split
  case h_1 stem ext heq =>
    rw [of_rsplitOnce heq] at hsep hdot
    cases stem with
    | nil => exact absurd rfl hdot
    | cons c stem => simp_all
  case h_2 =>
    have hname : name.toList ≠ [] := by simpa using hne
    obtain ⟨c, l, hl⟩ := List.exists_cons_of_ne_nil hname
    simp_all

theorem sanitize_safeDirName_ne {id : FylesId} (hid : z.sanitize id.text ≠ "") {title : String}
    (htitle : z.sanitize (z.sanitize title) = z.sanitize title) :
    z.sanitize (safeDirName z id title) ≠ "" := by
  rw [safeDirName]
  split
  · exact hid
  · next h => rwa [htitle]

/-- A part file has a proper name, since it begins with a number. -/
theorem proper_partFileName {startedAtMs transferId peerId contactId name}
    (h : sanitizeFilename z (getPartFileName startedAtMs transferId peerId contactId) = some name) :
    Proper z name := by
  obtain ⟨rfl, hne⟩ := of_sanitizeFilename h
  refine ⟨hne, Sanitizer.mainSeparator_notMem_sanitize, ?_⟩
  obtain ⟨c, hc, hfirst⟩ := z.head?_sanitize_getPartFileName startedAtMs transferId peerId contactId
  rw [hc]
  rintro ⟨⟩
  revert hfirst
  decide

/-- What is touched for a transfer: a file in the directory of part files, or one below the
directory of all filerequests. -/
inductive HostPath
  | partFile (name : String)
  | finishedFile (path : List String)
  deriving DecidableEq

variable (z)

/-- What is created, appended to, renamed to or deleted: the part file, and the finished file. -/
def touched (isFile moves : List String → Bool) (dirName partFileName fileName : String) :
    List HostPath :=
  ((sanitizeFilename z partFileName).map .partFile).toList ++
    ((finalizePartialFile z isFile moves dirName partFileName fileName).map fun moved =>
      .finishedFile moved.path).toList

/-- **Contained.** A file is in the directory of part files, or in the directory of its filerequest,
under a proper name. -/
def Contained (dirName : String) : HostPath → Prop
  | .partFile name => Proper z name
  | .finishedFile path =>
    z.sanitize dirName ≠ "" ∧ ∃ name, path = [z.sanitize dirName, name] ∧ Proper z name

variable {z}

/-- **Which names are put where they belong.** For all ids, titles and names, and whatever exists:
everything that is touched is contained if and only if the sanitised name of the file does not
begin with a dot, or there is no part file. Where long names are cut off, the title and the name
are ones that do not change when they are sanitised again. -/
theorem contained_iff {id : FylesId} (hid : z.sanitize id.text ≠ "") (title fileName : String)
    (hz : z.truncate = true → ∀ name ∈ [title, fileName],
      z.sanitize (z.sanitize name) = z.sanitize name)
    (startedAtMs : ℤ) (transferId : FylesId) (peerId : PeerId) (contactId : Option ContactId) :
    let dirName := safeDirName z id title
    let partFileName := getPartFileName startedAtMs transferId peerId contactId
    (∀ isFile moves, ∀ p ∈ touched z isFile moves dirName partFileName fileName,
      Contained z dirName p) ↔
      ((sanitizeFilename z partFileName).isSome →
        ∀ name ∈ sanitizeFilename z fileName, name.toList.head? ≠ some '.') := by
  intro dirName partFileName
  have hstable : ∀ name ∈ [title, fileName], z.sanitize (z.sanitize name) = z.sanitize name := by
    cases hcut : z.truncate with
    | false => exact fun name _ => sanitize_sanitize hcut name
    | true => exact hz hcut
  have hdir : z.sanitize dirName ≠ "" := sanitize_safeDirName_ne hid (hstable title (by simp))
  have hpath : ∀ name ∈ sanitizeFilename z fileName,
      parseSanitized z [dirName, name] = [z.sanitize dirName, name] := by
    intro name hname
    obtain ⟨rfl, hne⟩ := of_sanitizeFilename hname
    simp [parseSanitized, hstable fileName (by simp), hdir, hne]
  constructor
  · intro h hpart name hname
    obtain ⟨part, hpart⟩ := Option.isSome_iff_exists.mp hpart
    have hmoved : finalizePartialFile z (fun _ => false) (fun _ => true) dirName
        partFileName fileName =
        some ⟨[z.sanitize dirName, name], name⟩ := by
      simp [finalizePartialFile, hpart, Option.mem_def.mp hname, hpath name hname]
    obtain ⟨-, name', heq, hproper⟩ :=
      h (fun _ => false) (fun _ => true) (.finishedFile [z.sanitize dirName, name])
        (by simp [touched, hmoved])
    obtain rfl : name = name' := by simpa using heq
    exact hproper.2.2
  · intro h isFile moves p hp
    rcases List.mem_append.mp hp with hp | hp
    · obtain ⟨name, hname, rfl⟩ := Option.map_eq_some_iff.mp (Option.mem_toList.mp hp)
      exact proper_partFileName hname
    · obtain ⟨moved, hmoved, rfl⟩ := Option.map_eq_some_iff.mp (Option.mem_toList.mp hp)
      obtain ⟨hpart, hname, -, hwhere⟩ := of_finalizePartialFile hmoved
      have hproper : Proper z moved.filePath := by
        refine ⟨(of_sanitizeFilename hname).2, ?_, h hpart _ hname⟩
        rw [(of_sanitizeFilename hname).1]
        exact Sanitizer.mainSeparator_notMem_sanitize
      refine ⟨hdir, ?_⟩
      simp only [hpath _ hname] at hwhere
      rcases hwhere with ⟨-, heq⟩ | ⟨-, name, hlast, i, heq⟩
      · exact ⟨_, heq, hproper⟩
      · obtain rfl : moved.filePath = name := by simpa using hlast
        exact ⟨_, heq, hproper.variation i⟩

theorem contained_album :
    Contained .sample (safeDirName .sample ⟨"id"⟩ "album") (.finishedFile ["album", "a.jpg"]) :=
  (contained_iff (by decide) "album" "a.jpg" (fun _ => by decide) 0 ⟨"t"⟩ ⟨"P"⟩ none).mpr
    (fun _ => by decide) (fun _ => false) (fun _ => true) _ (by decide)

/-- A name that begins with a character that is removed may go on with a dot. -/
theorem hidden_file :
    .finishedFile ["album", ".profile"] ∈ touched .sample (fun _ => false) (fun _ => true)
      (safeDirName .sample ⟨"id"⟩ "album") (getPartFileName 0 ⟨"t"⟩ ⟨"P"⟩ none) "/.profile" ∧
    ¬ Contained .sample (safeDirName .sample ⟨"id"⟩ "album")
      (.finishedFile ["album", ".profile"]) := by
  refine ⟨by decide, ?_⟩
  rintro ⟨-, name, heq, -, -, hdot⟩
  obtain ⟨-, rfl⟩ : _ ∧ ".profile" = name := by simpa using heq
  exact hdot (by decide)

end Fyles.FinishedFiles
