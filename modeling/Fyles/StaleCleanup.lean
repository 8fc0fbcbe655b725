import Mathlib
import Fyles.PartFileIsolation

/-!
# Part files that are too old

`parse_part_file_started_at_ms` in `core/src/library/util/part_file.rs` and `run_cleanups` in
`core/src/core/brain/stale_cleanup.rs`. A part file is removed by the name that is built from the
row of its transfer, and what is then left in the directory if the time in its name is long ago.
But the receiver has sanitised the name, and the longest names have lost their end with that, so
that they are not taken for names of part files.

## Main results

* `foundAgain_iff` — the part files that are found again
-/

namespace Fyles.PartFiles

/-- `str::parse::<i64>`. -/
def parseI64 (text : List Char) : Option ℤ :=
  (match text with
    | '+' :: digits => (String.ofList digits).toNat?.map Int.ofNat
    | _ => (String.ofList text).toInt?).filter fun n => IsI64 n

/-- `parse_part_file_started_at_ms`. -/
def parsePartFileStartedAtMs (filename : String) : Option ℤ :=
  if ".part".toList.isSuffixOf filename.toList then
    parseI64 (filename.toList.takeWhile (· ≠ '_'))
  else none

namespace Receivers

/-- `sweep_partial_cleanup`. -/
def sweepPartialCleanup (threshold : ℤ) (w : Receivers) : Receivers :=
  { w with parts := (w.parts.keys.filter fun name =>
      (parsePartFileStartedAtMs name).any (· < threshold)).foldl (fun parts name =>
        parts.erase name) w.parts }

/-- `run_cleanups`, as far as part files are concerned, given the rows that are stale. -/
def runCleanups (z : Sanitizer) (threshold : ℤ) (stale : List (ℤ × IncomingTransfer))
    (w : Receivers) : Receivers :=
  (stale.foldl (fun w row => w.structuredPartialCleanup z row.1 row.2) w).sweepPartialCleanup
    threshold

theorem notMem_parts_sweepPartialCleanup {threshold startedAtMs : ℤ} {w : Receivers}
    {name : String} (h : parsePartFileStartedAtMs name = some startedAtMs)
    (hlt : startedAtMs < threshold) : name ∉ (w.sweepPartialCleanup threshold).parts := by
  have herase : ∀ (names : List String) (parts : AList fun _ : String => ℕ),
      name ∈ names.foldl (fun parts name => parts.erase name) parts →
        name ∈ parts ∧ name ∉ names := by
    intro names
    induction names with
    | nil => exact fun parts hmem => ⟨hmem, List.not_mem_nil⟩
    | cons n names ih =>
      intro parts hmem
      obtain ⟨hparts, hnames⟩ := ih _ hmem
      rw [AList.mem_erase] at hparts
      exact ⟨hparts.2, List.not_mem_cons_of_ne_of_not_mem hparts.1 hnames⟩
  intro hmem
  obtain ⟨hparts, hnames⟩ := herase _ _ hmem
  refine hnames (List.mem_filter.mpr ⟨AList.mem_keys.mp hparts, ?_⟩)
  rw [h]
  exact decide_eq_true hlt

end Receivers

variable {z : Sanitizer} {startedAtMs : ℤ} {transfer : IncomingTransfer}

/-- The time is read back from the name. -/
theorem parsePartFileStartedAtMs_getPartFileName (h : IsI64 startedAtMs) (transferId : FylesId)
    (peerId : PeerId) (contactId : Option ContactId) :
    parsePartFileStartedAtMs (getPartFileName startedAtMs transferId peerId contactId) =
      some startedAtMs := by
  have hfirst : ∀ c ∈ (toString startedAtMs).toList, c ≠ '_' ∧ c ≠ '+' := by
    rintro c hc
    constructor <;> rintro rfl <;> exact absurd (mem_toString_int hc) (by decide)
  have hparse : parseI64 (toString startedAtMs).toList = some startedAtMs := by
    rw [parseI64, String.ofList_toList, Int.toString_eq_repr, Int.toInt?_repr]
    · simpa using h
    · exact fun digits heq => (hfirst '+' (by rw [heq]; simp)).2 rfl
  rw [parsePartFileStartedAtMs, if_pos, toList_getPartFileName, delimited_cons,
    List.takeWhile_append_of_pos fun c hc => decide_eq_true (hfirst c hc).1]
  · simpa using hparse
  · rw [List.isSuffixOf_iff_suffix, toList_getPartFileName]
    simp only [delimited_cons, delimited_nil, ← List.append_assoc, ← List.cons_append]
    exact List.suffix_append _ _

/-- **Found again.** -/
structure FoundAgain (z : Sanitizer) (startedAtMs : ℤ) (transfer : IncomingTransfer) : Prop where
  /-- The clean-up removes what the receiver has created. -/
  name : z.partPath startedAtMs transfer.transferId transfer.peerId transfer.contactId =
    some (getPartFileName startedAtMs transfer.transferId transfer.peerId transfer.contactId)
  /-- The sweep reads the time from the name. -/
  startedAt : ∀ path ∈ z.partPath startedAtMs transfer.transferId transfer.peerId
    transfer.contactId, parsePartFileStartedAtMs path = some startedAtMs
  gone : ∀ path ∈ z.partPath startedAtMs transfer.transferId transfer.peerId transfer.contactId,
    ∀ threshold > startedAtMs, ∀ stale w, path ∉ (Receivers.runCleanups z threshold stale w).parts

/-- **Which part files are found again.** Those with a name that sanitising leaves as it is. -/
theorem foundAgain_iff (htime : IsI64 startedAtMs) : FoundAgain z startedAtMs transfer ↔
    z.sanitize (getPartFileName startedAtMs transfer.transferId transfer.peerId
      transfer.contactId) =
    getPartFileName startedAtMs transfer.transferId transfer.peerId transfer.contactId := by
  rw [← partPath_eq_name_iff]
  refine ⟨FoundAgain.name, fun hname => ?_⟩
  have hparse := parsePartFileStartedAtMs_getPartFileName htime transfer.transferId
    transfer.peerId transfer.contactId
  refine ⟨hname, ?_, ?_⟩ <;> rintro path hpath <;>
    obtain rfl := Option.mem_unique hname hpath
  · exact hparse
  · exact fun threshold hlt stale w => Receivers.notMem_parts_sweepPartialCleanup hparse hlt

theorem foundAgain_plain : FoundAgain .sample 0 ⟨⟨"P"⟩, none, ⟨"t"⟩⟩ :=
  (foundAgain_iff (by decide)).mpr (by decide)

/-- The receiver creates another file than the clean-up removes, and one that the sweep does not
know. -/
theorem not_found_again : ¬ FoundAgain .sample 0 ⟨⟨"P"⟩, none, ⟨"x/"⟩⟩ ∧
    (Sanitizer.sample.partPath 0 ⟨.ofList (.replicate 60 '𝄞')⟩ ⟨"P"⟩ none).map
      parsePartFileStartedAtMs = some none := by
  refine ⟨fun h => absurd h.name (by decide), ?_⟩
  simp only [Sanitizer.partPath, sanitizeFilename, Sanitizer.sanitize, toList_getPartFileName,
    String.toList_ofList, ← String.toList_inj]
  decide +kernel

end Fyles.PartFiles
