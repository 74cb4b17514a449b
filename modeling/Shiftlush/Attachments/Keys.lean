import Shiftlush.Attachments.Records

namespace Shiftlush
namespace Attachments

/-!
# Storage keys

A key says what was uploaded and for what: company, object type, object,
category, and a name of its own.
-/

def ObjectType.value : ObjectType -> String
  | .elevator => "elevator"
  | .building => "building"
  | .contract => "contract"
  | .customer => "customer"
  | .company => "company"
  | .user => "user"
  | .maintenanceVisit => "maintenance_visit"
  | .fault => "fault"
  | .inspection => "inspection"

def ObjectType.values : List ObjectType :=
  [.elevator, .building, .contract, .customer, .company, .user, .maintenanceVisit, .fault, .inspection]

def AttachmentCategory.value : AttachmentCategory -> String
  | .photo => "photo"
  | .ceCertificate => "ce_certificate"
  | .declarationOfConformity => "declaration_of_conformity"
  | .permit => "permit"
  | .signedContract => "signed_contract"
  | .inspectionReport => "inspection_report"
  | .logo => "logo"
  | .signature => "signature"
  | .monthlyReport => "monthly_report"
  | .other => "other"

def AttachmentCategory.values : List AttachmentCategory :=
  [.photo, .ceCertificate, .declarationOfConformity, .permit, .signedContract, .inspectionReport, .logo,
   .signature, .monthlyReport, .other]

/-! ## Identifiers -/

/-- The last digits of a number in base sixteen. -/
def hexDigits : Nat -> Nat -> List Char
  | 0, _ => []
  | width + 1, n => hexDigits width (n / 16) ++ [Nat.digitChar (n % 16)]

/-- `str(uuid)` -/
def uuidText (id : Nat) : String :=
  let digits := hexDigits 32 id
  .ofList (digits.take 8 ++ '-' :: ((digits.drop 8).take 4 ++ '-' :: ((digits.drop 12).take 4 ++
    '-' :: ((digits.drop 16).take 4 ++ '-' :: digits.drop 20))))

/-- `str.replace(word, "")`; the number is what is left of an occurrence. -/
def without (word : List Char) : Nat -> List Char -> List Char
  | _, [] => []
  | left + 1, _ :: rest => without word left rest
  | 0, c :: rest =>
      if word.isPrefixOf (c :: rest) then without word (word.length - 1) rest else c :: without word 0 rest

def hexValue (c : Char) : Option Nat :=
  if '0' ≤ c ∧ c ≤ '9' then some (c.toNat - '0'.toNat)
  else if 'a' ≤ c ∧ c ≤ 'f' then some (c.toNat - 'a'.toNat + 10)
  else if 'A' ≤ c ∧ c ≤ 'F' then some (c.toNat - 'A'.toNat + 10)
  else none

/-- The digits after the first, a single `_` before any of them. -/
def hexRest : Nat -> List Char -> Option Nat
  | n, [] => some n
  | n, '_' :: c :: rest => (hexValue c).bind (fun digit => hexRest (16 * n + digit) rest)
  | n, c :: rest => (hexValue c).bind (fun digit => hexRest (16 * n + digit) rest)

def hexNumber : List Char -> Option Nat
  | [] => none
  | c :: rest => (hexValue c).bind (fun digit => hexRest digit rest)

/-- What `str.strip` takes away from both ends. -/
def stripped (takes : Char -> Bool) (text : List Char) : List Char :=
  ((text.dropWhile takes).reverse.dropWhile takes).reverse

/-- `int(text, 16)` of a text without `-`: blanks around it, a sign, and a prefix are allowed.
Only the digits and blanks of ASCII are read here. -/
def readInt16 (text : List Char) : Option Nat :=
  let bare := stripped (fun c => decide (c = ' ' ∨ '\t' ≤ c ∧ c ≤ '\r')) text
  let unsigned := match bare with
    | '+' :: rest => rest
    | _ => bare
  match unsigned with
  | '0' :: 'x' :: '_' :: rest | '0' :: 'X' :: '_' :: rest => hexNumber rest
  | '0' :: 'x' :: rest | '0' :: 'X' :: rest => hexNumber rest
  | _ => hexNumber unsigned

/-- `uuid.UUID(raw)` -/
def readUuid (raw : String) : Option Nat :=
  let bare := without "uuid:".toList 0 (without "urn:".toList 0 raw.toList)
  let digits := (stripped (fun c => decide (c = '\x7b' ∨ c = '\x7d')) bare).filter (fun c => c ≠ '-')
  if digits.length = 32 then readInt16 digits else none

/-! ## Keys -/

/-- `ALLOWED_TYPES` -/
def allowedTypes : List (String × String) :=
  [("image/jpeg", ".jpg"), ("image/png", ".png"), ("image/webp", ".webp"), ("application/pdf", ".pdf")]

/-- What a key says. -/
structure Place where
  objectType : ObjectType
  objectId : Nat
  category : AttachmentCategory
  deriving DecidableEq

/-- The key `prepare_upload` and `save_bytes` generate. -/
def uploadKey (company : Nat) (place : Place) (name : Nat) (extension : String) : String :=
  .ofList (['/'].intercalate [(uuidText company).toList, place.objectType.value.toList,
    (uuidText place.objectId).toList, place.category.value.toList, (uuidText name).toList ++ extension.toList])

/-- `_parse_key` -/
def parseKey (company : Nat) (storageKey : String) : Option Place :=
  match (storageKey.toList.splitOn '/').map String.ofList with
  | [owner, objectType, rawObjectId, category, _] =>
      if owner ≠ uuidText company then none
      else
        match ObjectType.values.find? (fun t => t.value = objectType),
            AttachmentCategory.values.find? (fun c => c.value = category) with
        | some objectType, some category => (readUuid rawObjectId).map (fun objectId => ⟨objectType, objectId, category⟩)
        | _, _ => none
  | _ => none

end Attachments
end Shiftlush
