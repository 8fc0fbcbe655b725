import Mathlib

/-!
# The data of the file exchange

The data types that the components of the service share: identifiers and the status of a pending
file (`core/src/core/domain_models.rs`), the messages of the file request protocol
(`p2p/src/types.rs`), what the ends of a session know about each other (`p2p/src/crypto.rs`), the
ways in which a request can fail (`p2p/src/send_receive_traits/session_send_receive.rs`) and the
notifications that the network layer sends to the brain (`core/src/core/brain/action_p2p.rs`).

Identifiers are strings in the source; each kind has its own type here, so that they cannot be
mixed up. Byte counts, indices and retry counters are natural numbers.
-/

namespace Fyles

/-! ### Identifiers -/

/-- An identifier given out by the service. -/
structure FylesId where
  text : String
  deriving DecidableEq, Repr

/-- The identifier of a contact. -/
structure ContactId where
  text : String
  deriving DecidableEq, Repr

/-- The identifier of a peer in the network. -/
structure PeerId where
  text : String
  deriving DecidableEq, Repr

/-- An error of the operating system, by its description. -/
structure IoError where
  message : String
  deriving DecidableEq, Repr

/-! ### Outgoing files -/

/-- How far a transfer has come. -/
structure TransferData where
  /-- The bytes acknowledged by the peer. -/
  progressBytes : ℕ
  fileSizeBytes : ℕ
  /-- The identifier under which both peers know the transfer. -/
  transferId : FylesId
  deriving DecidableEq, Repr

/-- The stages of a transfer that has been offered to the peer. -/
inductive InProgressSendStatus
  | prepared
  | sending
  | interrupted
  /-- Everything sent, waiting for the peer to confirm. -/
  | pendingSent
  deriving DecidableEq, Repr

/-- The status of a transfer that has been offered to the peer. -/
structure InProgress where
  status : InProgressSendStatus
  /-- How far it has come. -/
  transferData : TransferData
  deriving DecidableEq, Repr

/-- The status of an outgoing file. -/
inductive SendStatus
  | pending
  /-- Offered to the peer. -/
  | inProgress (progress : InProgress)
  | sent
  | rejected
  | failed
  /-- A status of another version of the software. -/
  | unknown (status : String)
  deriving DecidableEq, Repr

/-- The transfer data of a status, if it has any. -/
def SendStatus.transferData : SendStatus → Option TransferData
  | .inProgress progress => some progress.transferData
  | _ => none

/-- An outgoing file. -/
structure PendingFile where
  id : FylesId
  /-- The contact for whom the file is meant. -/
  contactId : ContactId
  filePath : String
  retryCount : ℕ
  /-- The file request that it answers. -/
  targetFilerequestId : FylesId
  status : SendStatus
  deriving DecidableEq, Repr

/-! ### Messages -/

/-- A piece of a file. -/
structure DataChunk where
  transferUuid : FylesId
  data : List UInt8
  /-- Its position among the chunks of this run of the transfer. -/
  idx : ℕ
  deriving DecidableEq, Repr

/-- The requests of the file request protocol. -/
inductive FileRequest
  /-- Offer a file. -/
  | newTransfer (filerequestId : FylesId) (fileName : String) (fileSizeBytes : ℕ)
      (transferUuid : FylesId)
  /-- Ask to go on with an interrupted transfer. -/
  | continueTransfer (filerequestId transferUuid : FylesId)
  | abortTransfer (transferUuid : Option FylesId)
  | chunk (chunk : DataChunk)
  /-- All chunks have been sent. -/
  | done (transferUuid : FylesId)
  /-- A response did not fit its request. -/
  | protocolViolation (transferUuid : Option FylesId)
  deriving DecidableEq, Repr

/-- The transfer that a request is made for. An abort and a protocol violation are made for none. -/
def FileRequest.transfer : FileRequest → Option FylesId
  | .newTransfer _ _ _ transferUuid | .continueTransfer _ transferUuid | .done transferUuid =>
    some transferUuid
  | .chunk piece => some piece.transferUuid
  | .abortTransfer _ | .protocolViolation _ => none

/-- The responses of the file request protocol. -/
inductive FileResponse
  | acceptNewTransfer
  | rejectNewTransfer
  /-- Go on with the byte at `offset`. -/
  | acceptContinueTransfer (offset : ℕ)
  | restartContinueTransfer
  | rejectContinueTransfer
  | confirmChunk
  | rejectChunk
  | confirmAbort
  | confirmDone
  | rejectDone
  | acknowledgeProtocolViolation
  | protocolViolation
  | internalError
  deriving DecidableEq, Repr

/-- The responses after which the tracker sends chunks of the file that it has offered. -/
def FileResponse.starts : FileResponse → Bool
  | .acceptNewTransfer | .restartContinueTransfer | .acceptContinueTransfer _ => true
  | _ => false

/-! ### Sessions -/

/-- What the two ends of a session know about each other. -/
inductive EstablishedSessionAuthentication
  | unauthenticated
  | iKnowOther (contactId : ContactId)
  | otherKnowsMe
  | weKnowEachOther (contactId : ContactId)
  deriving DecidableEq, Repr

/-- `get_contact_id`: the contact that the other end has proved to be. -/
def EstablishedSessionAuthentication.getContactId :
    EstablishedSessionAuthentication → Option ContactId
  | .unauthenticated | .otherKnowsMe => none
  | .iKnowOther contactId | .weKnowEachOther contactId => some contactId

/-! ### Errors of a request -/

/-- What the other end can answer instead of a response. -/
inductive RemoteReceiveError
  /-- It has no session for this peer. -/
  | missingSession
  /-- It could not decrypt the request. -/
  | cannotDecrypt
  deriving DecidableEq, Repr

/-- The debug text of the error. -/
def RemoteReceiveError.debug : RemoteReceiveError → String
  | .missingSession => "MissingSession"
  | .cannotDecrypt => "CannotDecrypt"

/-- The errors of the transport. -/
inductive OutboundFailure
  | dialFailure
  | timeout
  | connectionClosed
  | unsupportedProtocols
  | io (error : IoError)
  deriving DecidableEq, Repr

/-- The debug text of the error. -/
def OutboundFailure.debug : OutboundFailure → String
  | .dialFailure => "DialFailure"
  | .timeout => "Timeout"
  | .connectionClosed => "ConnectionClosed"
  | .unsupportedProtocols => "UnsupportedProtocols"
  | .io error => "Io(" ++ error.message ++ ")"

/-- The errors found at this end. The errors of the cryptography are given by their debug text. -/
inductive LocalReceiveError
  | timeout
  | transportError (error : OutboundFailure)
  | missingSession
  | decryptError (errors : String)
  | resendError (error : String)
  deriving DecidableEq, Repr

/-- The debug text of the error. -/
def LocalReceiveError.debug : LocalReceiveError → String
  | .timeout => "Timeout"
  | .transportError error => "TransportError(" ++ error.debug ++ ")"
  | .missingSession => "MissingSession"
  | .decryptError errors => "DecryptError(" ++ errors ++ ")"
  | .resendError error => "ResendError(" ++ error ++ ")"

/-- Why a request got no response. -/
inductive ReceiveError
  | remoteError (error : RemoteReceiveError)
  | localError (error : LocalReceiveError)
  deriving DecidableEq, Repr

/-! ### Notifications -/

/-- What the file tracker tells the brain about a pending file. -/
inductive NetworkNodeAction
  | fileSent (pendingFileId : FylesId)
  | fileFailed (pendingFileId : FylesId)
  | fileMissing (pendingFileId : FylesId)
  /-- A request to open the file, which fails; the brain takes note before it answers. -/
  | openFileForReading (pendingFileId : FylesId)
  | fileRejected (pendingFileId : FylesId)
  | fileIoError (file : FylesId) (error : IoError)
  /-- The file went back to the queue. -/
  | fileSendReset (pendingFileId : FylesId) (status : SendStatus) (retryCount : Option ℕ)
      (reason : Option String)
  /-- The transfer has made progress. -/
  | fileSending (pendingFileId : FylesId) (status : SendStatus)
  deriving DecidableEq, Repr

/-- The file that a notification reports as finished, if it is one of the five that do. -/
def NetworkNodeAction.terminal : NetworkNodeAction → Option FylesId
  | .fileSent id | .fileFailed id | .fileMissing id | .fileRejected id | .fileIoError id _ =>
    some id
  | .openFileForReading _ | .fileSendReset .. | .fileSending .. => none

end Fyles
