import Mathlib.Tactic.Common

namespace Shiftlush
namespace Attachments

/-!
# Files kept in object storage

The row of a file.  Its bytes are elsewhere, under the row's key.
-/

inductive ObjectType where
  | elevator
  | building
  | contract
  | customer
  | company
  | user
  | maintenanceVisit
  | fault
  | inspection
  deriving DecidableEq, Repr

inductive AttachmentCategory where
  | photo
  | ceCertificate
  | declarationOfConformity
  | permit
  | signedContract
  | inspectionReport
  | logo
  | signature
  | monthlyReport
  | other
  deriving DecidableEq, Repr

structure Attachment where
  company : Nat
  objectType : ObjectType
  objectId : Nat
  category : AttachmentCategory
  originalFilename : String
  mimeType : String
  sizeBytes : Nat
  storageKey : String
  /-- The clock, in whatever unit; `none` while the row is live. -/
  deletedAt : Option Nat
  deriving DecidableEq

def Attachment.isDeleted (attachment : Attachment) : Bool := attachment.deletedAt.isSome

end Attachments
end Shiftlush
