import Fyles.PartFiles
import Mathlib.Data.String.Basic

/-!
# Part files of different transfers

Two transfers that differ in the peer, the contact or the transfer id are to have different part
files. The name of a part file is made of the time at which the transfer started, the contact, the
peer and the transfer id, with `_` between them, and is then sanitised. Contact ids and transfer
ids are texts that the peer has chosen.

What a request does to a part file it does to the file at the path that belongs to the transfer,
and no file changes its path; so two transfers touch the same file only if their paths are equal
(`Receivers.Placed`). But different transfers that have started in the same millisecond can have
the same path. The transfer ids `x` and `x/` are the same once `/` is removed, and two long ids are
the same once they are cut off. A transfer without a contact has the path of one whose contact is
called `unknown-contact`. And where the contact id has a `_`, it is not clear where it ends, so
that even transfers of different peers can have the same path.

If no contact id has a `_` or is `unknown-contact`, if the ids have no reserved characters, and if
they are not too long, then the name can be read back from the path, and so the transfers are
isolated.

## Main results

* `Plain.partPath_inj` — plain ids lead to different paths
* `partPath_none`, `partPath_long` — how other ids lead to the same one
* `Receivers.Placed.step` — the invariant
* `isolated_of_orderly` — in orderly runs different transfers never touch the same part file
* `part_file_shared` — a run in which they do
-/

namespace Fyles.PartFiles

open FilerequestReceiver

/-! ### Names that can be read back -/

/-- The text for a contact in the name of a part file. -/
def contactString (contactId : Option ContactId) : String :=
  (contactId.map ContactId.text).getD "unknown-contact"

/-- The numbers that a time can be. -/
def IsI64 (n : ℤ) : Prop := -2 ^ 63 ≤ n ∧ n < 2 ^ 63

instance (n : ℤ) : Decidable (IsI64 n) := inferInstanceAs (Decidable (_ ∧ _))

/-- The bytes that are left for the ids in a name: a time has up to twenty, and the name has three
times `_` and `.part` besides. -/
def maxIdBytes : ℕ := maxNameBytes - 28

/-- Ids that can be read back from the path of the part file. -/
structure Plain (z : Sanitizer) (transfer : IncomingTransfer) : Prop where
  /-- The id of a peer is in base 58, which has no `_`. -/
  peer_underscore : '_' ∉ transfer.peerId.text.toList
  /-- There is no `_` in the id of the contact. -/
  contact_underscore : '_' ∉ (contactString transfer.contactId).toList
  /-- The id of the contact does not look like the absence of a contact. -/
  contact_known : transfer.contactId ≠ some ⟨"unknown-contact"⟩
  /-- Nothing is removed. -/
  kept : ∀ c ∈ (contactString transfer.contactId).toList ++ transfer.peerId.text.toList ++
    transfer.transferId.text.toList, z.reserved c = false
  /-- Nothing is cut off. -/
  short : (contactString transfer.contactId).utf8ByteSize + transfer.peerId.text.utf8ByteSize +
    transfer.transferId.text.utf8ByteSize ≤ maxIdBytes

instance (z : Sanitizer) (transfer : IncomingTransfer) : Decidable (Plain z transfer) :=
  have : Decidable (∀ c ∈ (contactString transfer.contactId).toList ++
      transfer.peerId.text.toList ++ transfer.transferId.text.toList, z.reserved c = false) :=
    List.decidableBAll _ _
  decidable_of_iff (_ ∧ _ ∧ _ ∧ _ ∧ _)
    ⟨fun ⟨h1, h2, h3, h4, h5⟩ => ⟨h1, h2, h3, h4, h5⟩,
      fun ⟨h1, h2, h3, h4, h5⟩ => ⟨h1, h2, h3, h4, h5⟩⟩

variable (startedAtMs : ℤ)

variable (transferId : FylesId)

variable (peerId : PeerId)

theorem toList_getPartFileName (contactId : Option ContactId) :
    (getPartFileName startedAtMs transferId peerId contactId).toList =
      delimited '_' [(toString startedAtMs).toList, (contactString contactId).toList,
        peerId.text.toList] (transferId.text.toList ++ ".part".toList) := by
  simp only [getPartFileName, contactString, String.toList_append, delimited_cons, delimited_nil,
    List.append_assoc]
  rfl

/-- A name begins with the time. -/
theorem head?_getPartFileName (contactId : Option ContactId) :
    (getPartFileName startedAtMs transferId peerId contactId).toList.head? =
      (toString startedAtMs).toList.head?.or (some '_') := by
  rw [toList_getPartFileName, delimited_cons, List.head?_append]
  rfl

/-! ### Decimal numbers -/

variable {c : Char} {n : ℤ}

theorem isDigit_of_mem_repr {n : ℕ} (h : c ∈ n.repr.toList) : c.isDigit = true := by
  rw [Nat.repr_eq_ofList_toDigits, String.toList_ofList] at h
  exact Nat.isDigit_of_mem_toDigits (by decide) (by decide) h

theorem mem_toString_int (h : c ∈ (toString n).toList) : c.isDigit = true ∨ c = '-' := by
  rw [Int.toString_eq_repr, Int.repr_eq_if] at h
  split at h
  · exact .inl (isDigit_of_mem_repr h)
  · rw [String.toList_append, List.mem_append] at h
    obtain h | h := h
    · exact .inr (List.mem_singleton.mp h)
    · exact .inl (isDigit_of_mem_repr h)

theorem length_repr_le {n k : ℕ} (hk : 0 < k) (h : n < 10 ^ k) : n.repr.toList.length ≤ k := by
  rw [Nat.repr_eq_ofList_toDigits, String.toList_ofList]
  exact (Nat.length_toDigits_le_iff (by decide) hk).mpr h

theorem IsI64.length_toString_le (h : IsI64 n) : (toString n).toList.length ≤ 20 := by
  obtain ⟨hlow, hhigh⟩ := h
  rw [Int.toString_eq_repr, Int.repr_eq_if]
  split
  · exact length_repr_le (by decide) (by omega)
  · rw [String.toList_append, List.length_append]
    have hdigits : (-n).toNat.repr.toList.length ≤ 19 := length_repr_le (by decide) (by omega)
    exact Nat.add_le_add (Nat.le_refl 1) hdigits

/-! ### Sizes -/

theorem utf8ByteSize_eq_sum (s : String) : s.utf8ByteSize = (s.toList.map Char.utf8Size).sum := by
  rw [← String.utf8Len_toList]
  induction s.toList with
  | nil => rfl
  | cons c l ih => rw [String.utf8Len_cons, ih, List.map_cons, List.sum_cons, Nat.add_comm]

theorem utf8Size_of_mem_toString (h : c ∈ (toString n).toList) : c.utf8Size = 1 := by
  rw [Char.utf8Size_eq_one_iff]
  obtain h | rfl := mem_toString_int h
  · rw [Char.isDigit, Bool.and_eq_true, decide_eq_true_eq, decide_eq_true_eq] at h
    exact UInt32.le_trans h.2 (by decide)
  · decide

theorem IsI64.utf8ByteSize_toString_le (h : IsI64 n) : (toString n).utf8ByteSize ≤ 20 := by
  rw [utf8ByteSize_eq_sum, List.map_congr_left fun c hc => utf8Size_of_mem_toString hc]
  simpa using h.length_toString_le

/-! ### Reading back -/

theorem Sanitizer.reserved_of_mem_sanitize {z : Sanitizer} {name : String} {c : Char}
    (h : c ∈ (z.sanitize name).toList) : z.reserved c = false := by
  rw [Sanitizer.sanitize] at h
  split at h
  · simp at h
  · rw [String.toList_ofList] at h
    have hmem : c ∈ name.toList.filter fun c => !z.reserved c := by
      cases hz : z.truncate <;> rw [hz] at h
      · exact h
      · exact mem_of_mem_cutOff h
    simpa using (List.mem_filter.mp hmem).2

theorem Sanitizer.mainSeparator_notMem_sanitize {z : Sanitizer} {name : String} :
    z.mainSeparator ∉ (z.sanitize name).toList := by
  intro h
  have hkept := Sanitizer.reserved_of_mem_sanitize h
  rw [z.reserved_mainSeparator] at hkept
  cases hkept

/-- A name begins with the time. -/
theorem getPartFileName_eq_cons (contactId : Option ContactId) :
    ∃ c l, (getPartFileName startedAtMs transferId peerId contactId).toList = c :: l ∧
      (c.isDigit = true ∨ c = '-' ∨ c = '_') := by
  rw [toList_getPartFileName, delimited_cons]
  cases hnumber : (toString startedAtMs).toList with
  | nil => exact ⟨'_', _, rfl, .inr (.inr rfl)⟩
  | cons c l =>
    have hc : c ∈ (toString startedAtMs).toList := hnumber ▸ List.mem_cons_self
    exact ⟨c, _, rfl, (mem_toString_int hc).imp_right .inl⟩

theorem Sanitizer.kept_first (z : Sanitizer) {c : Char}
    (h : c.isDigit = true ∨ c = '-' ∨ c = '_') : z.reserved c = false := by
  refine z.kept c (h.imp (fun hdigit => ?_) (·.imp_right .inl))
  rw [Char.isAlphanum, hdigit, Bool.or_true]

/-- The name of a part file is not a reserved one. -/
theorem Sanitizer.sanitize_getPartFileName (z : Sanitizer) (contactId : Option ContactId) :
    let name := (getPartFileName startedAtMs transferId peerId contactId).toList.filter fun c =>
      !z.reserved c
    z.sanitize (getPartFileName startedAtMs transferId peerId contactId) =
      .ofList (bif z.truncate then cutOff Char.utf8Size maxNameBytes name else name) := by
  obtain ⟨c, l, hl, hc⟩ := getPartFileName_eq_cons startedAtMs transferId peerId contactId
  refine if_neg ?_
  rw [hl, List.filter_cons_of_pos (by rw [z.kept_first hc]; rfl), z.emptied_first c _ hc]
  exact Bool.false_ne_true

/-- What is left of the name of a part file begins with the time. -/
theorem Sanitizer.head?_sanitize_getPartFileName (z : Sanitizer) (contactId : Option ContactId) :
    ∃ c, (z.sanitize (getPartFileName startedAtMs transferId peerId contactId)).toList.head? =
      some c ∧ (c.isDigit = true ∨ c = '-' ∨ c = '_') := by
  obtain ⟨c, l, hl, hc⟩ := getPartFileName_eq_cons startedAtMs transferId peerId contactId
  have hsize : c.utf8Size ≤ maxNameBytes := c.utf8Size_le_four.trans (by decide)
  refine ⟨c, ?_, hc⟩
  rw [z.sanitize_getPartFileName, hl, List.filter_cons_of_pos (by rw [z.kept_first hc]; rfl),
    cutOff, if_pos hsize, String.toList_ofList]
  cases z.truncate <;> rfl

/-- The path of a part file is its name if sanitising leaves the name as it is. -/
theorem partPath_eq_name_iff {z : Sanitizer} {startedAtMs : ℤ} {transferId peerId contactId} :
    z.partPath startedAtMs transferId peerId contactId =
        some (getPartFileName startedAtMs transferId peerId contactId) ↔
      z.sanitize (getPartFileName startedAtMs transferId peerId contactId) =
        getPartFileName startedAtMs transferId peerId contactId := by
  obtain ⟨c, l, hl, hc⟩ := getPartFileName_eq_cons startedAtMs transferId peerId contactId
  rw [Sanitizer.partPath, sanitizeFilename]
  generalize getPartFileName startedAtMs transferId peerId contactId = name at hl
  have hdot : name.toList.head? ≠ some '.' := by
    rw [hl]
    rintro ⟨⟩
    revert hc
    decide
  have hempty : name ≠ "" := by
    rintro rfl
    cases hl
  rw [if_neg hdot]
  constructor
  · intro h
    split at h
    · cases h
    · split at h
      · cases h
      · exact Option.some.inj h
  · intro h
    rw [h, if_neg hempty, if_neg]
    rw [← h]
    exact Sanitizer.mainSeparator_notMem_sanitize

namespace Plain

variable {z : Sanitizer} {transfer transfer' : IncomingTransfer} {startedAtMs startedAtMs' : ℤ}

theorem reserved_eq_false (h : Plain z transfer) {c}
    (hc : c ∈ (getPartFileName startedAtMs transfer.transferId transfer.peerId
      transfer.contactId).toList) : z.reserved c = false := by
  rw [toList_getPartFileName] at hc
  simp only [delimited_cons, delimited_nil, List.mem_append, List.mem_cons] at hc
  rcases hc with hc | rfl | hc | rfl | hc | rfl | hc | hc
  · exact z.kept_first ((mem_toString_int hc).imp_right .inl)
  · exact z.kept _ (.inr (.inr (.inl rfl)))
  · exact h.kept c (List.mem_append_left _ (List.mem_append_left _ hc))
  · exact z.kept _ (.inr (.inr (.inl rfl)))
  · exact h.kept c (List.mem_append_left _ (List.mem_append_right _ hc))
  · exact z.kept _ (.inr (.inr (.inl rfl)))
  · exact h.kept c (List.mem_append_right _ hc)
  · have hpart : (".part".toList.all fun c => c.isAlphanum || c == '.') = true := by decide
    refine z.kept c ?_
    obtain halnum | hdot := Bool.or_eq_true _ _ ▸ List.all_eq_true.mp hpart c hc
    · exact .inl halnum
    · exact .inr (.inr (.inr (eq_of_beq hdot)))

theorem utf8ByteSize_le (h : Plain z transfer) (htime : IsI64 startedAtMs) :
    (getPartFileName startedAtMs transfer.transferId transfer.peerId
      transfer.contactId).utf8ByteSize ≤ maxNameBytes := by
  have htime := htime.utf8ByteSize_toString_le
  have hshort := h.short
  have hunderscore : "_".utf8ByteSize = 1 := by decide
  have hpart : ".part".utf8ByteSize = 5 := by decide
  rw [contactString, maxIdBytes, maxNameBytes] at hshort
  simp only [getPartFileName, String.utf8ByteSize_append, hunderscore, hpart, maxNameBytes]
  omega

/-- The name is the path. -/
theorem partPath_eq (h : Plain z transfer) (htime : IsI64 startedAtMs) :
    z.partPath startedAtMs transfer.transferId transfer.peerId transfer.contactId =
      some (getPartFileName startedAtMs transfer.transferId transfer.peerId
        transfer.contactId) := by
  have hkept : ∀ c ∈ (getPartFileName startedAtMs transfer.transferId transfer.peerId
      transfer.contactId).toList, z.reserved c = false := fun c hc => h.reserved_eq_false hc
  rw [partPath_eq_name_iff, Sanitizer.sanitize_getPartFileName,
    List.filter_eq_self.mpr fun c hc => by rw [hkept c hc]; rfl,
    cutOff_of_le ((utf8ByteSize_eq_sum _).symm.trans_le (h.utf8ByteSize_le htime)),
    Bool.cond_self, String.ofList_toList]

theorem underscore_notMem (h : Plain z transfer) : ∀ field ∈ [(toString startedAtMs).toList,
    (contactString transfer.contactId).toList, transfer.peerId.text.toList], '_' ∉ field := by
  intro field hfield
  simp only [List.mem_cons, List.not_mem_nil, or_false] at hfield
  rcases hfield with rfl | rfl | rfl
  · intro hmem
    have := mem_toString_int hmem
    revert this
    decide
  · exact h.contact_underscore
  · exact h.peer_underscore

/-- A contact can be read back from its text. -/
theorem contactId_eq (h : Plain z transfer) (h' : Plain z transfer')
    (htext : contactString transfer.contactId = contactString transfer'.contactId) :
    transfer.contactId = transfer'.contactId := by
  have hknown := h.contact_known
  have hknown' := h'.contact_known
  cases hc : transfer.contactId with
  | none =>
    cases hc' : transfer'.contactId with
    | none => rfl
    | some id' =>
      rw [hc, hc'] at htext
      exact absurd (hc'.trans (congrArg (some ∘ ContactId.mk) htext.symm)) hknown'
  | some id =>
    cases hc' : transfer'.contactId with
    | none =>
      rw [hc, hc'] at htext
      exact absurd (hc.trans (congrArg (some ∘ ContactId.mk) htext)) hknown
    | some id' =>
      rw [hc, hc'] at htext
      exact congrArg (some ∘ ContactId.mk) htext

/-- **Different paths.** Transfers with plain ids have the same path only if they are the same. -/
theorem partPath_inj (h : Plain z transfer) (h' : Plain z transfer') (htime : IsI64 startedAtMs)
    (htime' : IsI64 startedAtMs')
    (hpath : z.partPath startedAtMs transfer.transferId transfer.peerId transfer.contactId =
      z.partPath startedAtMs' transfer'.transferId transfer'.peerId transfer'.contactId) :
    transfer = transfer' := by
  rw [h.partPath_eq htime, h'.partPath_eq htime', Option.some.injEq, ← String.toList_inj,
    toList_getPartFileName, toList_getPartFileName] at hpath
  obtain ⟨hfields, hlast⟩ := delimited_inj (by rfl) h.underscore_notMem h'.underscore_notMem hpath
  obtain ⟨-, hcontact, hpeer⟩ : _ ∧ _ ∧ _ := by simpa using hfields
  have htransfer := List.append_cancel_right hlast
  rw [String.toList_inj] at hcontact hpeer htransfer
  exact IncomingTransfer.ext (congrArg PeerId.mk hpeer) (h.contactId_eq h' hcontact)
    (congrArg FylesId.mk htransfer)

end Plain

/-! ### Names that cannot be read back -/

section Collisions

variable (z : Sanitizer) (startedAtMs : ℤ)

theorem partPath_congr (hz : z.truncate = true) {transferId transferId' peerId contactId}
    (h : cutOff Char.utf8Size maxNameBytes ((getPartFileName startedAtMs transferId peerId
        contactId).toList.filter fun c => !z.reserved c) =
      cutOff Char.utf8Size maxNameBytes ((getPartFileName startedAtMs transferId' peerId
        contactId).toList.filter fun c => !z.reserved c)) :
    z.partPath startedAtMs transferId peerId contactId =
      z.partPath startedAtMs transferId' peerId contactId := by
  rw [Sanitizer.partPath, Sanitizer.partPath, sanitizeFilename, sanitizeFilename,
    head?_getPartFileName, head?_getPartFileName, Sanitizer.sanitize_getPartFileName,
    Sanitizer.sanitize_getPartFileName, hz, cond_true, cond_true, h]

/-- A transfer without a contact has the path of one whose contact is called
`unknown-contact`. -/
theorem partPath_none (transferId : FylesId) (peerId : PeerId) :
    z.partPath startedAtMs transferId peerId none =
      z.partPath startedAtMs transferId peerId (some ⟨"unknown-contact"⟩) := rfl

/-- The path does not depend on what comes after too many bytes. -/
theorem partPath_long (hz : z.truncate = true) {common : String} (rest rest' : String)
    (peerId : PeerId) (contactId : Option ContactId)
    (h : maxNameBytes <
      ((common.toList.filter fun c => !z.reserved c).map Char.utf8Size).sum) :
    z.partPath startedAtMs ⟨common ++ rest⟩ peerId contactId =
      z.partPath startedAtMs ⟨common ++ rest'⟩ peerId contactId := by
  refine partPath_congr z startedAtMs hz ?_
  obtain ⟨front, hfront⟩ : ∃ front : List Char, ∀ rest,
      (getPartFileName startedAtMs ⟨common ++ rest⟩ peerId contactId).toList =
        (front ++ common.toList) ++ (rest.toList ++ ".part".toList) :=
    ⟨(toString startedAtMs).toList ++ '_' :: (contactString contactId).toList ++
      '_' :: peerId.text.toList ++ ['_'], fun rest => by simp [toList_getPartFileName]⟩
  have hcut : ∀ rest, cutOff Char.utf8Size maxNameBytes ((getPartFileName startedAtMs
      ⟨common ++ rest⟩ peerId contactId).toList.filter fun c => !z.reserved c) =
      cutOff Char.utf8Size maxNameBytes
        ((front ++ common.toList).filter fun c => !z.reserved c) := by
    intro rest
    rw [hfront, List.filter_append, cutOff_append_of_lt]
    rw [List.filter_append, List.map_append, List.sum_append]
    exact Nat.lt_add_left _ h
  rw [hcut rest, hcut rest']

end Collisions

/-! ### Where files lie -/

/-- A transfer that has started at some time touches a file at the path that belongs to it. -/
structure Touches (z : Sanitizer) (pathOf : ℕ → String) (files : ℕ) (startedAtMs : ℤ)
    (transfer : IncomingTransfer) (file : ℕ) : Prop where
  lt : file < files
  time : IsI64 startedAtMs
  /-- The path of the file is that of the transfer. -/
  path : z.partPath startedAtMs transfer.transferId transfer.peerId transfer.contactId =
    some (pathOf file)

theorem Touches.mono {z} {pathOf pathOf' : ℕ → String} {files files' : ℕ} {startedAtMs : ℤ}
    {transfer} {file : ℕ} (h : Touches z pathOf files startedAtMs transfer file)
    (hle : files ≤ files') (hsame : ∀ f < files, pathOf' f = pathOf f) :
    Touches z pathOf' files' startedAtMs transfer file :=
  ⟨h.lt.trans_le hle, h.time, (hsame file h.lt).symm ▸ h.path⟩

/-- The part files of a directory have the paths that they were created with. -/
def Lie (pathOf : ℕ → String) (parts : AList fun _ : String => ℕ) (files : ℕ) : Prop :=
  ∀ name file, parts.lookup name = some file → pathOf file = name ∧ file < files

section Lie

variable {pathOf : ℕ → String} {r : FilerequestReceiver}

theorem Lie.erase {parts : AList fun _ : String => ℕ} {files : ℕ} (h : Lie pathOf parts files)
    (name : String) : Lie pathOf (parts.erase name) files := by
  intro name' file hfile
  obtain rfl | hne := eq_or_ne name' name
  · rw [AList.lookup_erase] at hfile
    cases hfile
  · rw [AList.lookup_erase_ne hne] at hfile
    exact h _ _ hfile

/-- A file that is created gets the path it is opened with; the others keep theirs. -/
theorem Lie.openPart (h : Lie pathOf r.parts r.files.length) (name : String) : ∃ pathOf',
    (∀ file < r.files.length, pathOf' file = pathOf file) ∧
    Lie pathOf' (r.openPart name).2.parts (r.openPart name).2.files.length ∧
    pathOf' (r.openPart name).1 = name ∧
    (r.openPart name).1 < (r.openPart name).2.files.length := by
  cases hlookup : r.parts.lookup name with
  | some file =>
    rw [FilerequestReceiver.openPart, hlookup]
    exact ⟨pathOf, fun _ _ => rfl, h, h _ _ hlookup⟩
  | none =>
    rw [FilerequestReceiver.openPart, hlookup]
    have hsame : ∀ file < r.files.length,
        Function.update pathOf r.files.length name file = pathOf file :=
      fun file hlt => Function.update_of_ne hlt.ne _ _
    refine ⟨Function.update pathOf r.files.length name, hsame, ?_, Function.update_self _ _ _,
      by simp⟩
    intro name' file hfile
    rw [List.length_append]
    obtain rfl | hne := eq_or_ne name' name
    · rw [AList.lookup_insert] at hfile
      obtain ⟨⟩ := hfile
      exact ⟨Function.update_self _ _ _, Nat.lt_succ_self _⟩
    · rw [AList.lookup_insert_ne hne] at hfile
      obtain ⟨hpath, hlt⟩ := h _ _ hfile
      exact ⟨(hsame _ hlt).trans hpath, Nat.lt_succ_of_lt hlt⟩

end Lie

/-- A request has touched only files at the path of the transfer that it means, and a transfer in
memory goes on to touch only such files. -/
structure Settled (z : Sanitizer) (pathOf : ℕ → String) (nodeId : PeerId) (reply : Reply) :
    Prop where
  lie : Lie pathOf reply.receiver.parts reply.receiver.files.length
  /-- The transfer in memory writes to the file at its path. -/
  receiving : ∀ m, reply.receiver.receiving = some m →
    Touches z pathOf reply.receiver.files.length m.startedAtMs
      ⟨nodeId, m.contactId, m.transferId⟩ m.file
  /-- So do the requests. -/
  accesses : ∀ a ∈ reply.accesses, ∀ file, a.file = some file →
    Touches z pathOf reply.receiver.files.length a.startedAtMs a.target file

theorem Touches.of_header {z} {pathOf : ℕ → String} {files : ℕ} {nodeId} {m m' : ReceiveManager}
    (h : Touches z pathOf files m.startedAtMs ⟨nodeId, m.contactId, m.transferId⟩ m.file)
    (hheader : m'.header = m.header) :
    Touches z pathOf files m'.startedAtMs ⟨nodeId, m'.contactId, m'.transferId⟩ m'.file := by
  simp only [ReceiveManager.header, Prod.mk.injEq] at hheader
  obtain ⟨-, hfile, -, hid, -, hcontact, hstart⟩ := hheader
  rw [hfile, hid, hcontact, hstart]
  exact h

/-- **What a request touches.** -/
theorem Answered.settled {z env} {nodeId : PeerId} {contactId r request reply} {pathOf : ℕ → String}
    (h : Answered z.partPath env nodeId contactId r request reply)
    (hlie : Lie pathOf r.parts r.files.length) (htimes : ∀ time ∈ startTimes env, IsI64 time)
    (htouches : ∀ m, r.receiving = some m → Touches z pathOf r.files.length m.startedAtMs
      ⟨nodeId, m.contactId, m.transferId⟩ m.file) :
    ∃ pathOf', (∀ file < r.files.length, pathOf' file = pathOf file) ∧
      r.files.length ≤ reply.receiver.files.length ∧ Settled z pathOf' nodeId reply := by
  cases h with
  | plain response hreceiving =>
    refine ⟨pathOf, fun _ _ => rfl, Nat.le_refl _, hlie, ?_, fun _ h => nomatch h⟩
    intro m' hm'
    obtain ⟨m, hm, hheader⟩ := hreceiving m' hm'
    exact (htouches m hm).of_header hheader
  | opened response hrequest htime hname hnotices hhandles hreceiving =>
    next startedAtMs transferUuid name notices receiving authorized =>
    obtain ⟨pathOf', hsame, hlie', hfile, hlt⟩ := hlie.openPart name
    have hle := length_openPart r name
    have hopened : Touches z pathOf' (r.openPart name).2.files.length startedAtMs
        ⟨nodeId, contactId, transferUuid⟩ (r.openPart name).1 :=
      ⟨hlt, htimes _ htime, hfile.symm ▸ hname⟩
    refine ⟨pathOf', hsame, hle, hlie', ?_, ?_⟩
    · intro m hm
      obtain h | ⟨-, m', hm', hfile', rfl, rfl, rfl⟩ := hreceiving
      · exact (htouches m (h.symm.trans hm)).mono hle hsame
      · obtain rfl := Option.mem_unique hm' hm
        rw [hfile']
        exact hopened
    · intro a ha file hafile
      obtain rfl := List.mem_singleton.mp ha
      obtain ⟨⟩ := hafile
      exact hopened
  | lost =>
    refine ⟨pathOf, fun _ _ => rfl, Nat.le_refl _, hlie, htouches, ?_⟩
    intro a ha file hafile
    obtain rfl := List.mem_singleton.mp ha
    cases hafile
  | stored response hm hid hcontact hreceiving hnotices hhandles hfailed =>
    next c m bytes receiving notices failed =>
    have hlen : (r.files.set m.file bytes).length = r.files.length := List.length_set
    refine ⟨pathOf, fun _ _ => rfl, hlen.ge, ?_, ?_, ?_⟩
    · intro name file hfile
      rw [hlen]
      exact hlie name file hfile
    · intro m' hm'
      rw [hlen]
      exact (htouches m hm).of_header (hreceiving m' hm')
    · intro a ha file hafile
      rw [hlen]
      obtain rfl | ha := List.mem_cons.mp ha
      · obtain ⟨⟩ := hafile
        subst hcontact
        exact htouches m hm
      · rw [hfailed a ha] at hafile
        cases hafile
  | aborted response hm hid hremoves hname =>
    next transferUuid m name =>
    refine ⟨pathOf, fun _ _ => rfl, Nat.le_refl _, hlie.erase name, fun _ h => (nomatch h), ?_⟩
    intro a ha file hafile
    obtain ha | ha := List.mem_append.mp ha
    · obtain ⟨file', hfile', rfl⟩ := Option.map_eq_some_iff.mp (Option.mem_toList.mp ha)
      obtain ⟨⟩ := hafile
      obtain ⟨rfl, hlt⟩ := hlie _ _ hfile'
      exact ⟨hlt, (htouches m hm).time, hname⟩
    · obtain rfl := List.mem_singleton.mp ha
      cases hafile
  | finalized response hm hid hprogress hfinal hname hfile hnotices hhandles hcompleted =>
    next transferUuid m name file notices completed =>
    refine ⟨pathOf, fun _ _ => rfl, Nat.le_refl _, hlie.erase name, htouches, ?_⟩
    intro a ha file' hafile
    obtain rfl | ha := List.mem_cons.mp ha
    · obtain ⟨⟩ := hafile
      obtain ⟨rfl, hlt⟩ := hlie _ _ hfile
      subst hid
      exact ⟨hlt, (htouches m hm).time, hname⟩
    · rw [hcompleted a ha] at hafile
      cases hafile

/-! ### Orderly runs -/

/-- The event has only plain ids, and times that are times. -/
def Orderly (z : Sanitizer) (w : Receivers) : Event → Prop
  | .request peer contactId request env =>
    (∀ transferId ∈ concerned (w.receiving peer) request, Plain z ⟨peer, contactId, transferId⟩) ∧
      ∀ time ∈ startTimes env, IsI64 time
  | .structuredPartialCleanup startedAtMs transfer => Plain z transfer ∧ IsI64 startedAtMs
  | .expire _ | .sweepPartialCleanup _ => True

instance (z : Sanitizer) (w : Receivers) (e) : Decidable (Orderly z w e) := by
  rw [Orderly.eq_def]
  split <;> infer_instance

/-- Every file was only touched by transfers with its path, and with plain ids. -/
structure Receivers.Placed (z : Sanitizer) (pathOf : ℕ → String) (w : Receivers) : Prop where
  parts : Lie pathOf w.parts w.files.length
  /-- The transfers in memory write to the files at their paths. -/
  receiving : ∀ peer m, w.receiving peer = some m →
    Touches z pathOf w.files.length m.startedAtMs ⟨peer, m.contactId, m.transferId⟩ m.file
  /-- So did everyone. -/
  accesses : ∀ a ∈ w.accesses, ∀ file, a.file = some file →
    Plain z a.target ∧ Touches z pathOf w.files.length a.startedAtMs a.target file

namespace Receivers.Placed

variable {z : Sanitizer} {pathOf : ℕ → String} {w w' : Receivers} {e : Event}

theorem new : Placed z pathOf .new :=
  ⟨fun _ _ h => (nomatch h), fun _ _ h => (nomatch h), fun _ h => (nomatch h)⟩

theorem request {peer contactId request env reply} (h : w.Placed z pathOf)
    (hok : Orderly z w (.request peer contactId request env))
    (hanswered : Answered z.partPath env peer contactId (w.atPeer peer) request reply) :
    ∃ pathOf', (w.leave peer reply).Placed z pathOf' := by
  obtain ⟨pathOf', hsame, hle, hsettled⟩ := hanswered.settled h.parts hok.2 (h.receiving peer)
  refine ⟨pathOf', hsettled.lie, ?_, ?_⟩
  · intro peer' m hm
    obtain ⟨rfl, hleft⟩ | hother := receiving_leave hm
    · exact hsettled.receiving m hleft
    · exact (h.receiving _ _ hother).mono hle hsame
  · intro a ha file hafile
    obtain ha | ha := List.mem_append.mp ha
    · obtain ⟨hplain, htouches⟩ := h.accesses a ha file hafile
      exact ⟨hplain, htouches.mono hle hsame⟩
    · refine ⟨?_, hsettled.accesses a ha file hafile⟩
      have horigin := hanswered.origin ha
      have hplain := hok.1 _ horigin.concerned_eq
      rw [← horigin.contactId_eq, ← horigin.peerId_eq] at hplain
      exact hplain

theorem structuredPartialCleanup {startedAtMs : ℤ} {transfer} (h : w.Placed z pathOf)
    (hplain : Plain z transfer) (htime : IsI64 startedAtMs) :
    (w.structuredPartialCleanup z startedAtMs transfer).Placed z pathOf := by
  rw [Receivers.structuredPartialCleanup]
  split
  · exact h
  · refine ⟨h.parts.erase _, h.receiving, ?_⟩
    intro a ha file hafile
    obtain ha | ha := List.mem_append.mp ha
    · exact h.accesses a ha file hafile
    · obtain ⟨file', hfile', rfl⟩ := Option.map_eq_some_iff.mp (Option.mem_toList.mp ha)
      obtain ⟨⟩ := hafile
      obtain ⟨hpath, hlt⟩ := h.parts _ _ hfile'
      -- The name was not sanitised, but sanitising would not have changed it.
      refine ⟨hplain, hlt, htime, ?_⟩
      rw [hpath]
      exact hplain.partPath_eq htime

theorem step (h : w.Placed z pathOf) (hok : Orderly z w e) (hstep : w.step z e = some w') :
    ∃ pathOf', w'.Placed z pathOf' := by
  cases e with
  | request peer contactId request env =>
    obtain ⟨⟩ := hstep
    exact h.request hok (answered request)
  | expire peer =>
    obtain ⟨⟩ := hstep
    exact ⟨pathOf, h.parts, fun _ _ hm => h.receiving _ _ (of_update_eq hm nofun).2, h.accesses⟩
  | structuredPartialCleanup startedAtMs transfer =>
    obtain ⟨⟩ := hstep
    exact ⟨pathOf, h.structuredPartialCleanup hok.1 hok.2⟩
  | sweepPartialCleanup name =>
    obtain ⟨⟩ := hstep
    exact ⟨pathOf, h.parts.erase name, h.receiving, h.accesses⟩

end Receivers.Placed

/-- **Part files are isolated.** In every orderly run, two transfers that differ in the peer, the
contact or the transfer id never open, append to, finish or remove the same part file. -/
theorem isolated_of_orderly {z : Sanitizer} {events : List Event} {w : Receivers}
    (h : Run (Receivers.step z) (Orderly z) .new events w) {x y : Access} (hx : x ∈ w.accesses)
    (hy : y ∈ w.accesses) {file : ℕ} (hxfile : x.file = some file) (hyfile : y.file = some file) :
    x.target = y.target := by
  obtain ⟨pathOf, hplaced⟩ : ∃ pathOf, w.Placed z pathOf :=
    h.invariant (I := fun w => ∃ pathOf, Receivers.Placed z pathOf w) ⟨fun _ => "", .new⟩
      fun ⟨_, hw⟩ hok hstep => hw.step hok hstep
  obtain ⟨hplain, htouches⟩ := hplaced.accesses x hx file hxfile
  obtain ⟨hplain', htouches'⟩ := hplaced.accesses y hy file hyfile
  exact hplain.partPath_inj hplain' htouches.time htouches'.time
    (htouches.path.trans htouches'.path.symm)

/-- Two peers offer files in the same millisecond, under the same transfer id. The file that one
opens and the file that one appends to is the same for the same peer. -/
theorem isolated_of_orderly_offered : ∃ w,
    Run (Receivers.step .sample) (Orderly .sample) .new
      (offered ⟨"P"⟩ (some ⟨"alice"⟩) ⟨"transfer"⟩ ++ offered ⟨"Q"⟩ none ⟨"transfer"⟩) w ∧
    w.files = [[1], [1]] ∧ ∃ x ∈ w.accesses, ∃ y ∈ w.accesses,
      x.operation = .opened ∧ x.file = some 1 ∧ y.operation = .appended ∧ y.file = some 1 ∧
      x.target = y.target := by
  refine Run.exists_and Run.get_runFrom fun hrun => ⟨by decide,
    ⟨.opened, some 1, 0, ⟨⟨"Q"⟩, none, ⟨"transfer"⟩⟩, some ⟨"transfer"⟩, none⟩, ?_,
    ⟨.appended, some 1, 0, ⟨⟨"Q"⟩, none, ⟨"transfer"⟩⟩, some ⟨"transfer"⟩, none⟩, ?_,
    rfl, rfl, rfl, rfl, isolated_of_orderly hrun ?_ ?_ rfl rfl⟩ <;> decide

/-- **Part files that are shared.** Within a millisecond, a peer offers files under the transfer ids
`x` and `x/`, and the bytes of both go into one file. So do those of two peers, one of them with the
contact `c` and the other with the contact `c_P`. A transfer without a contact and one whose contact
is called `unknown-contact` have the same path, and so have two transfers with long ids. -/
theorem part_file_shared : (∃ w, Run (Receivers.step .sample) (fun _ _ => True) .new
        (offered ⟨"P"⟩ (some ⟨"alice"⟩) ⟨"x"⟩ ++ offered ⟨"P"⟩ (some ⟨"alice"⟩) ⟨"x/"⟩) w ∧
      w.files = [[1, 1]] ∧
      w.accesses.map (fun a => (a.operation, a.file, a.target)) =
        [(.opened, some 0, ⟨⟨"P"⟩, some ⟨"alice"⟩, ⟨"x"⟩⟩),
          (.appended, some 0, ⟨⟨"P"⟩, some ⟨"alice"⟩, ⟨"x"⟩⟩),
          (.opened, some 0, ⟨⟨"P"⟩, some ⟨"alice"⟩, ⟨"x/"⟩⟩),
          (.appended, some 0, ⟨⟨"P"⟩, some ⟨"alice"⟩, ⟨"x/"⟩⟩)]) ∧
    (∃ w, Run (Receivers.step .sample) (fun _ _ => True) .new
        (offered ⟨"P"⟩ (some ⟨"c"⟩) ⟨"Q_t"⟩ ++ offered ⟨"Q"⟩ (some ⟨"c_P"⟩) ⟨"t"⟩) w ∧
      w.files = [[1, 1]] ∧
      w.accesses.map (fun a => (a.operation, a.file, a.target)) =
        [(.opened, some 0, ⟨⟨"P"⟩, some ⟨"c"⟩, ⟨"Q_t"⟩⟩),
          (.appended, some 0, ⟨⟨"P"⟩, some ⟨"c"⟩, ⟨"Q_t"⟩⟩),
          (.opened, some 0, ⟨⟨"Q"⟩, some ⟨"c_P"⟩, ⟨"t"⟩⟩),
          (.appended, some 0, ⟨⟨"Q"⟩, some ⟨"c_P"⟩, ⟨"t"⟩⟩)]) ∧
    Sanitizer.sample.partPath 0 ⟨"t"⟩ ⟨"P"⟩ none =
      Sanitizer.sample.partPath 0 ⟨"t"⟩ ⟨"P"⟩ (some ⟨"unknown-contact"⟩) ∧
    Sanitizer.sample.partPath 0 ⟨.ofList (List.replicate 256 'x') ++ "1"⟩ ⟨"P"⟩ none =
      Sanitizer.sample.partPath 0 ⟨.ofList (List.replicate 256 'x') ++ "2"⟩ ⟨"P"⟩ none := by
  refine ⟨⟨_, Run.get_runFrom, by decide, by decide⟩,
    ⟨_, Run.get_runFrom, by decide, by decide⟩,
    partPath_none _ _ _ _, partPath_long _ _ rfl "1" "2" _ _ ?_⟩
  rw [String.toList_ofList, List.filter_replicate_of_pos (by decide), List.map_replicate,
    List.sum_replicate_nat]
  decide

end Fyles.PartFiles
