import Fyles.DomainModels

/-!
# Contacts and the user's own identity

The part of the database that knows contacts (`core/src/library/sqlite/actor.rs`) and the questions
that the brain answers from it (`core/src/core/brain/handle_action.rs`): which keys a contact has,
and whether a contact may drop a file.

The user's own contact is not among the contacts. It is kept in a table of its own, and looked at
only where the source says so: after the contacts, when the keys of a contact are asked for; and
after the access list, when a file is dropped. Nothing keeps the two tables apart: `registerContact`
refuses an id only if it is among the contacts, and the id of a contact that was shared by a peer is
the peer's choice.

## Reads of the database

The brain turns a failed read into "nothing found". Which reads work is a parameter. The two reads
of a question need not see the same state of the database; a change between them is the same as a
first read that fails.

The keys are of an arbitrary type; names, private keys and time stamps are left out.

## Main results

* `Db.getContactPublicKeys_cases` — the keys are those of a contact or the own ones
* `Db.requestFileDrop_bySelf` — the branch that lets the user in
-/

namespace Fyles

/-! ### The tables -/

/-- A contact, as it is registered or shared. -/
structure Contact (Keys : Type) where
  id : ContactId
  publicKeys : Keys
  deriving DecidableEq, Repr

/-- The user's own contact. -/
structure SelfContact (Keys : Type) where
  id : ContactId
  publicKeys : Keys
  deriving DecidableEq, Repr

/-- The tables of the contacts and of the user's own contact. -/
structure Db (Keys : Type) where
  /-- The keys of the contacts. Contacts that were stored by earlier versions may have none. -/
  contacts : AList fun _ : ContactId => Option Keys
  selfContact : SelfContact Keys

/-- Which reads of the database work. -/
structure DbReads where
  contacts : Bool
  selfContact : Bool
  deriving DecidableEq, Repr

namespace Db

variable {Keys : Type} {db : Db Keys} {reads : DbReads} {id : ContactId}

/-- The database of a user who has registered no contacts since contacts have keys. -/
def migrated (selfContact : SelfContact Keys) (contacts : List ContactId) : Db Keys :=
  ⟨contacts.foldr (fun id table => table.insert id none) ∅, selfContact⟩

/-- `handle_register_contact`; `none` if there is a contact with that id. -/
def registerContact (db : Db Keys) (contact : Contact Keys) : Option (Db Keys) :=
  if contact.id ∈ db.contacts then none
  else some { db with contacts := db.contacts.insert contact.id (some contact.publicKeys) }

/-- `handle_delete_contact`. -/
def deleteContact (db : Db Keys) (id : ContactId) : Db Keys :=
  { db with contacts := db.contacts.erase id }

/-- `handle_update_identity`. -/
def updateIdentity (db : Db Keys) (selfContact : SelfContact Keys) : Db Keys :=
  { db with selfContact := selfContact }

/-- `handle_get_contact_public_keys`. -/
def handleGetContactPublicKeys (db : Db Keys) (id : ContactId) : Option Keys :=
  (db.contacts.lookup id).join

/-! ### The brain's answers -/

/-- `GetContactPublicKeys`: the keys of a contact, or else those of the user. -/
def getContactPublicKeys (db : Db Keys) (reads : DbReads) (id : ContactId) : Option Keys :=
  match if reads.contacts then db.handleGetContactPublicKeys id else none with
  | some keys => some keys
  | none =>
    if reads.selfContact && db.selfContact.id = id then some db.selfContact.publicKeys else none

/-- The keys are those of a contact, or the user's own. -/
theorem getContactPublicKeys_cases {keys} (h : db.getContactPublicKeys reads id = some keys) :
    db.handleGetContactPublicKeys id = some keys ∨
      db.selfContact.id = id ∧ keys = db.selfContact.publicKeys := by
  rw [getContactPublicKeys] at h
  split at h
  · next hkeys =>
    obtain ⟨⟩ := h
    split at hkeys
    · exact .inl hkeys
    · cases hkeys
  · split at h
    · next hself =>
      obtain ⟨⟩ := h
      exact .inr ⟨of_decide_eq_true (Bool.and_eq_true_iff.mp hself).2, rfl⟩
    · cases h

/-- The own id is answered with the own keys, unless a contact with that id has others. -/
theorem getContactPublicKeys_self (hreads : reads.selfContact = true)
    (h : ∀ keys, db.handleGetContactPublicKeys db.selfContact.id = some keys →
      keys = db.selfContact.publicKeys) :
    db.getContactPublicKeys reads db.selfContact.id = some db.selfContact.publicKeys := by
  rw [getContactPublicKeys]
  split
  · next hkeys =>
    split at hkeys
    · rw [h _ hkeys]
    · cases hkeys
  · simp [hreads]

theorem handleGetContactPublicKeys_migrated (selfContact : SelfContact Keys)
    (contacts : List ContactId) (id : ContactId) :
    (migrated selfContact contacts).handleGetContactPublicKeys id = none := by
  induction contacts with
  | nil => rfl
  | cons id' contacts ih =>
    simp only [handleGetContactPublicKeys, migrated, List.foldr_cons]
    by_cases hid : id = id'
    · rw [hid, AList.lookup_insert]
      rfl
    · rw [AList.lookup_insert_ne hid]
      exact ih

theorem handleGetContactPublicKeys_registerContact {db' contact}
    (h : db.registerContact contact = some db') {keys}
    (hkeys : db'.handleGetContactPublicKeys id = some keys) :
    db.handleGetContactPublicKeys id = some keys ∨
      contact.id ∉ db.contacts ∧ id = contact.id ∧ keys = contact.publicKeys := by
  rw [registerContact] at h
  split at h
  · cases h
  · next hnew =>
    obtain ⟨⟩ := h
    by_cases hid : id = contact.id
    · subst hid
      rw [handleGetContactPublicKeys, AList.lookup_insert] at hkeys
      exact .inr ⟨hnew, rfl, (Option.some.inj hkeys).symm⟩
    · rw [handleGetContactPublicKeys, AList.lookup_insert_ne hid] at hkeys
      exact .inl hkeys

theorem handleGetContactPublicKeys_deleteContact {deleted keys}
    (h : (db.deleteContact deleted).handleGetContactPublicKeys id = some keys) :
    db.handleGetContactPublicKeys id = some keys := by
  rw [handleGetContactPublicKeys, deleteContact] at h
  by_cases hid : id = deleted
  · subst hid
    rw [AList.lookup_erase] at h
    cases h
  · rw [AList.lookup_erase_ne hid] at h
    exact h

end Db

/-! ### Dropping files -/

/-- Who may drop files. -/
inductive FilerequestAccess
  | isPublic
  | audience (contactIds : List ContactId)
  deriving DecidableEq, Repr

/-- `is_accessible_by`. -/
def FilerequestAccess.isAccessibleBy (contactId : Option ContactId) : FilerequestAccess → Bool
  | .isPublic => true
  | .audience contactIds => (contactId.map fun id => decide (id ∈ contactIds)).getD false

/-- A file request, as far as it decides who may drop files. -/
structure Filerequest where
  access : FilerequestAccess
  isActive : Bool
  deriving DecidableEq, Repr

/-- Why a file may be dropped. -/
inductive DropGrant
  | byAccess
  | bySelf
  deriving DecidableEq, Repr

namespace Db

variable {Keys : Type} {db : Db Keys} {reads : DbReads}

/-- `RequestFileDrop`, for the file request that was found; `none` is a refusal. -/
def requestFileDrop (db : Db Keys) (reads : DbReads) (filerequest : Option Filerequest)
    (contactId : Option ContactId) : Option DropGrant :=
  match filerequest with
  | none => none
  | some filerequest =>
    if !filerequest.isActive then none
    else if filerequest.access.isAccessibleBy contactId then some .byAccess
    else if reads.selfContact && contactId = some db.selfContact.id then some .bySelf
    else none

/-- The branch that lets the user in looks at nothing but the id. -/
theorem requestFileDrop_bySelf {filerequest contactId}
    (h : db.requestFileDrop reads filerequest contactId = some .bySelf) :
    contactId = some db.selfContact.id := by
  rw [requestFileDrop.eq_def] at h
  split at h
  · cases h
  · split at h
    · cases h
    · split at h
      · cases h
      · split at h
        · next hself => exact of_decide_eq_true (Bool.and_eq_true_iff.mp hself).2
        · cases h

end Db

end Fyles
