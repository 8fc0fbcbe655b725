import Fyles.CompletedTransfers

/-!
# Who may go on with a transfer

The brain decides in `core/src/core/brain/handle_action.rs` whether a transfer may begin
(`RequestFileDrop`) and whether it may go on (`RequestFileTransferContinuation`), and it is not
asked about a transfer that the receiver has in memory. The first lets the user drop files
everywhere, the second does not; the second looks neither at the filerequest of the row nor at its
status.

## Main results

* `agree_iff` — when the paths agree
-/

namespace Fyles.Reception

open PartFiles

/-- A status after which nothing is received. -/
def isTerminal : ReceivedTag → Bool
  | .completed | .failed => true
  | .receiving | .interrupted => false

variable (z : Sanitizer) (s : Reception) (a : Asked) (filerequestId transferId : FylesId)

/-- What `RequestFileDrop` would answer. -/
def dropGrant : Option DropGrant :=
  a.db.requestFileDrop a.reads (s.tables.filerequest filerequestId) a.contactId

/-- The row is that of the peer, under the contact of the session. -/
def isOwn (row : ReceivedFile) : Bool := row.peerId = a.peer && row.contactId = a.contactId

/-- The row is for this filerequest, and not over. -/
def isOpen (row : ReceivedFile) : Bool :=
  row.filerequestId = filerequestId && !isTerminal row.status

/-- The contact is found to be the user. -/
def isUser : Bool := a.reads.selfContact && a.contactId = some a.db.selfContact.id

/-- The part file has a name, can be opened, and its length can be read. -/
def isReadable (row : ReceivedFile) : Bool :=
  (z.partPath row.startedAtMs transferId a.peer a.contactId).isSome && a.env.opensPartFile &&
    a.env.readsMetadata

/-- The row of the transfer is the peer's and open; and a new transfer could begin. -/
def entitled : Bool :=
  (s.tables.row transferId).any (fun row => isOwn a row && isOpen filerequestId row) &&
    (s.dropGrant a filerequestId).isSome

/-- The brain lets the transfer go on. -/
def granted : Bool :=
  (s.tables.requestFileTransferContinuation filerequestId transferId a.peer a.contactId).isSome

/-- The request is answered with `AcceptContinueTransfer`. -/
def accepted : Bool :=
  match (s.reply z a).response with
  | .acceptContinueTransfer _ => true
  | _ => false

/-- The entry in memory is that of the transfer. -/
def IsAsked (m : ReceiveManager) : Prop :=
  m.transferId = transferId ∧ m.filerequestId = filerequestId ∧ m.contactId = a.contactId

instance (m : ReceiveManager) : Decidable (IsAsked a filerequestId transferId m) :=
  inferInstanceAs (Decidable (_ ∧ _ ∧ _))

/-- **What is on record agrees.** A transfer in memory has an open row of the peer, and the
filerequest admits the contact; the row of a part file with which the peer could go on is open; and
who has an open row as the user is admitted otherwise, too. -/
def Consistent : Prop :=
  (∀ m ∈ s.receivers.receiving a.peer, IsAsked a filerequestId transferId m →
    (∃ row ∈ s.tables.row transferId, isOwn a row ∧ isOpen filerequestId row) ∧
      ∃ f ∈ s.tables.filerequest filerequestId,
        f.isActive ∧ (f.access.isAccessibleBy a.contactId ∨ isUser a)) ∧
  (∀ row ∈ s.tables.row transferId, ∀ f ∈ s.tables.filerequest filerequestId,
    isOwn a row → isReadable z a transferId row → f.isActive →
      f.access.isAccessibleBy a.contactId → isOpen filerequestId row) ∧
  ∀ row ∈ s.tables.row transferId, ∀ f ∈ s.tables.filerequest filerequestId,
    isOwn a row → isOpen filerequestId row → f.isActive → isUser a →
      f.access.isAccessibleBy a.contactId

instance : Decidable (Consistent z s a filerequestId transferId) :=
  inferInstanceAs (Decidable (_ ∧ _ ∧ _))

variable {z s a filerequestId transferId}

/-- What the brain looks at when a transfer is to go on. -/
theorem granted_iff : s.granted a filerequestId transferId ↔
    ∃ row ∈ s.tables.row transferId, ∃ f ∈ s.tables.filerequest filerequestId,
      isOwn a row ∧ f.isActive ∧ f.access.isAccessibleBy a.contactId := by
  rw [granted, IncomingTables.requestFileTransferContinuation]
  cases s.tables.filerequest filerequestId with
  | none => simp
  | some f =>
    cases s.tables.row transferId with
    | none => simp
    | some row =>
      cases hactive : f.isActive <;> cases haccess : f.access.isAccessibleBy a.contactId <;>
        by_cases hpeer : row.peerId = a.peer <;>
          by_cases hcontact : row.contactId = a.contactId <;>
            simp [isOwn, hactive, haccess, hpeer, hcontact]

/-- What the brain looks at when a transfer is to begin. -/
theorem dropGrant_iff : (s.dropGrant a filerequestId).isSome ↔
    ∃ f ∈ s.tables.filerequest filerequestId,
      f.isActive ∧ (f.access.isAccessibleBy a.contactId ∨ isUser a) := by
  rw [dropGrant, Db.requestFileDrop.eq_def, isUser]
  cases s.tables.filerequest filerequestId with
  | none => simp
  | some f =>
    cases hactive : f.isActive <;> cases haccess : f.access.isAccessibleBy a.contactId <;>
      by_cases huser : a.reads.selfContact && a.contactId = some a.db.selfContact.id <;>
        simp [hactive, haccess, huser]

theorem entitled_iff : s.entitled a filerequestId transferId ↔
    (∃ row ∈ s.tables.row transferId, isOwn a row ∧ isOpen filerequestId row) ∧
      ∃ f ∈ s.tables.filerequest filerequestId,
        f.isActive ∧ (f.access.isAccessibleBy a.contactId ∨ isUser a) := by
  rw [entitled, Bool.and_eq_true, dropGrant_iff]
  cases s.tables.row transferId <;> simp

theorem started_of_continuation {response} (h : s.tables.requestFileTransferContinuation
    filerequestId transferId a.peer a.contactId = some response) :
    ∃ row, s.tables.row transferId = some row ∧ response.startedAtMs = row.startedAtMs := by
  rw [IncomingTables.requestFileTransferContinuation.eq_def] at h
  split at h
  · next row _ hrow =>
    refine ⟨row, hrow, ?_⟩
    split_ifs at h
    cases h
    rfl
  · cases h

/-- A transfer in memory goes on; others need the brain and their part file. -/
theorem accepted_iff (h : a.request = .continueTransfer filerequestId transferId) :
    s.accepted z a ↔
      (∃ m ∈ s.receivers.receiving a.peer, IsAsked a filerequestId transferId m) ∨
      ∃ row ∈ s.tables.row transferId, isReadable z a transferId row ∧
        s.granted a filerequestId transferId := by
  have hcontinuation : (s.env a).continuation = s.tables.requestFileTransferContinuation
      filerequestId transferId a.peer a.contactId := by simp only [env, h]
  have hdisk : ∀ r, (match (continueFromDisk z.partPath (s.env a) a.peer a.contactId filerequestId
      transferId r).response with
      | .acceptContinueTransfer _ => true
      | _ => false) = true ↔ ∃ row ∈ s.tables.row transferId, isReadable z a transferId row ∧
        s.granted a filerequestId transferId := by
    intro r
    rw [continueFromDisk, granted, hcontinuation]
    cases hresponse : s.tables.requestFileTransferContinuation filerequestId transferId a.peer
        a.contactId with
    | none => simp [Reply.plain]
    | some response =>
      obtain ⟨row, hrow, hstart⟩ := started_of_continuation hresponse
      have hopens : (s.env a).opensPartFile = a.env.opensPartFile := rfl
      have hreads : (s.env a).readsMetadata = a.env.readsMetadata := rfl
      simp only [getPartialFileForWriting, hstart, hopens, hreads]
      cases hpath : z.partPath row.startedAtMs transferId a.peer a.contactId <;>
        cases hopen : a.env.opensPartFile <;> cases hread : a.env.readsMetadata <;>
          simp [isReadable, hrow, hpath, hopen, hread]
  rw [accepted, reply, h, respondTo, continueTransfer]
  rw [show (s.receivers.atPeer a.peer).receiving = s.receivers.receiving a.peer from rfl]
  cases s.receivers.receiving a.peer with
  | none => simpa using hdisk _
  | some m =>
    by_cases hm : IsAsked a filerequestId transferId m
    · rw [IsAsked] at hm
      simp [IsAsked, hm, Reply.plain]
    · rw [IsAsked] at hm
      simpa [IsAsked, hm] using hdisk _

/-- **When the paths agree.** A request is only accepted if the peer is entitled, and the brain lets
everybody go on who is entitled: if and only if what is on record agrees. -/
theorem agree_iff (h : a.request = .continueTransfer filerequestId transferId) :
    (s.accepted z a → s.entitled a filerequestId transferId) ∧
      (s.entitled a filerequestId transferId → s.granted a filerequestId transferId) ↔
    Consistent z s a filerequestId transferId := by
  rw [accepted_iff h, entitled_iff, granted_iff, Consistent, ← and_assoc, or_imp]
  refine and_congr (and_congr ?_ ?_) ?_
  · exact ⟨fun hm m hmem hasked => hm ⟨m, hmem, hasked⟩,
      fun hm ⟨m, hmem, hasked⟩ => hm m hmem hasked⟩
  · constructor
    · intro hopen row hrow f hf hown hreadable hactive haccess
      obtain ⟨⟨row', hrow', -, hopen⟩, -⟩ :=
        hopen ⟨row, hrow, hreadable, row, hrow, f, hf, hown, hactive, haccess⟩
      cases Option.mem_unique hrow hrow'
      exact hopen
    · rintro hopen ⟨row, hrow, hreadable, row', hrow', f, hf, hown, hactive, haccess⟩
      cases Option.mem_unique hrow hrow'
      exact ⟨⟨row, hrow, hown, hopen row hrow f hf hown hreadable hactive haccess⟩,
        f, hf, hactive, .inl haccess⟩
  · constructor
    · intro hgrant row hrow f hf hown hopen hactive huser
      obtain ⟨-, -, f', hf', -, -, haccess⟩ :=
        hgrant ⟨⟨row, hrow, hown, hopen⟩, f, hf, hactive, .inr huser⟩
      cases Option.mem_unique hf hf'
      exact haccess
    · rintro haccess ⟨⟨row, hrow, hown, hopen⟩, f, hf, hactive, hgrant⟩
      exact ⟨row, hrow, f, hf, hown, hactive,
        hgrant.elim id (haccess row hrow f hf hown hopen hactive)⟩

theorem agree_begun : ∃ s,
    Run (step .sample) (fun _ _ => True) (start .new sampleTables) sampleSent s ∧
    (s.accepted .sample (sampleAsked (.continueTransfer ⟨"filerequest"⟩ ⟨"transfer"⟩)) →
      s.entitled (sampleAsked (.continueTransfer ⟨"filerequest"⟩ ⟨"transfer"⟩)) ⟨"filerequest"⟩
        ⟨"transfer"⟩) :=
  ⟨_, Run.get_runFrom, ((agree_iff rfl).mpr (by decide)).1⟩

/-- A transfer that is complete, but still in memory, is accepted. -/
theorem accepted_when_complete : ∃ s,
    Run (step .sample) (fun _ _ => True) (start .new sampleTables)
      (sampleSent ++ [.request (sampleAsked (.done ⟨"transfer"⟩))]) s ∧
    s.accepted .sample (sampleAsked (.continueTransfer ⟨"filerequest"⟩ ⟨"transfer"⟩)) = true ∧
    s.entitled (sampleAsked (.continueTransfer ⟨"filerequest"⟩ ⟨"transfer"⟩)) ⟨"filerequest"⟩
      ⟨"transfer"⟩ = false :=
  ⟨_, Run.get_runFrom, by decide, by decide⟩

end Fyles.Reception
