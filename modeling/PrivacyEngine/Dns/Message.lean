import PrivacyEngine.Policy.Engine

/-!
# DNS messages as the filter reads them

The wire format is read and written by a library, which enters as a parameter: a partial parser, a
printer that may fail and the text of a name.  The filter looks at the header, at the first question
and at the CNAME records of the answers.
-/

namespace PrivacyEngine

open Wire

inductive MessageType where
  | query
  | response
  deriving DecidableEq

inductive OpCode where
  | query
  | status
  | notify
  | update
  | unknown (code : UInt8)
  deriving DecidableEq

inductive ResponseCode where
  | noError
  | nxDomain
  | other (code : UInt16)
  deriving DecidableEq

structure DnsHeader where
  id : UInt16
  messageType : MessageType
  opCode : OpCode
  authoritative : Bool
  truncation : Bool
  recursionDesired : Bool
  recursionAvailable : Bool
  authenticData : Bool
  checkingDisabled : Bool
  responseCode : ResponseCode
  deriving DecidableEq

/-- Header of a response: identifier, operation, recursion-desired and checking-disabled are those
of the request. -/
def DnsHeader.responseFromRequest (header : DnsHeader) : DnsHeader where
  id := header.id
  messageType := .response
  opCode := header.opCode
  authoritative := false
  truncation := false
  recursionDesired := header.recursionDesired
  recursionAvailable := false
  authenticData := false
  checkingDisabled := header.checkingDisabled
  responseCode := .noError

structure DnsQuestion (Name : Type) where
  name : Name
  queryType : UInt16
  queryClass : UInt16
  deriving DecidableEq

/-- Data of a record: the target of a CNAME, or anything else. -/
inductive RData (Name : Type) where
  | cname (target : Name)
  | other (data : Bytes)
  deriving DecidableEq

structure DnsMessage (Name : Type) where
  header : DnsHeader
  queries : List (DnsQuestion Name)
  answers : List (RData Name)
  deriving DecidableEq

/-- The library that reads and writes messages. -/
structure Hickory where
  Name : Type
  toAscii : Name → Str
  fromBytes : Bytes → Except Str (DnsMessage Name)
  toVec : DnsMessage Name → Option Bytes

def normalizeDnsName (name : Str) : Str := toAsciiLowercase (trimEndMatches 46 (trim name))

namespace Hickory

variable (hickory : Hickory)

/-- The normalized text of a name. -/
def nameOf (name : hickory.Name) : Str := normalizeDnsName (hickory.toAscii name)

def buildNxdomain (query : DnsMessage hickory.Name) : Bytes :=
  (hickory.toVec
    { header :=
        { query.header.responseFromRequest with
          responseCode := .nxDomain
          recursionAvailable := true }
      queries := query.queries
      answers := [] }).getD []

/-- The first question of a standard query. -/
def standardQuestion (message : DnsMessage hickory.Name) : Option (DnsQuestion hickory.Name) :=
  if message.header.messageType ≠ .query ∨ message.header.opCode ≠ .query then none
  else message.queries.head?

end Hickory

/-- What a reply has to agree with. -/
structure QueryKey where
  id : UInt16
  name : Str
  qtype : UInt16
  qclass : UInt16
  deriving DecidableEq

namespace QueryKey

def fromQueryBytes (hickory : Hickory) (query : Bytes) : Option QueryKey :=
  match hickory.fromBytes query with
  | .error _ => none
  | .ok message =>
      (hickory.standardQuestion message).map fun question =>
        { id := message.header.id
          name := hickory.nameOf question.name
          qtype := question.queryType
          qclass := question.queryClass }

def matchesReplyBytes (hickory : Hickory) (key : QueryKey) (reply : Bytes) : Bool :=
  match hickory.fromBytes reply with
  | .error _ => false
  | .ok message =>
      if message.header.id ≠ key.id then false
      else
        match message.queries.head? with
        | some question =>
            !(hickory.nameOf question.name ≠ key.name || question.queryType ≠ key.qtype ||
              question.queryClass ≠ key.qclass)
        | none => true

end QueryKey

def extractCnameTargets (hickory : Hickory) (response : Bytes) : List Str :=
  match hickory.fromBytes response with
  | .error _ => []
  | .ok message =>
      message.answers.filterMap fun
        | .cname target => some (hickory.nameOf target)
        | .other _ => none

/-- A reply matches exactly when it parses, has the identifier, and repeats the question if it has
one. -/
theorem QueryKey.matchesReplyBytes_iff (hickory : Hickory) (key : QueryKey) (reply : Bytes) :
    key.matchesReplyBytes hickory reply = true ↔
      ∃ message, hickory.fromBytes reply = .ok message ∧ message.header.id = key.id ∧
        ∀ question, message.queries.head? = some question →
          hickory.nameOf question.name = key.name ∧ question.queryType = key.qtype ∧
            question.queryClass = key.qclass := by
  unfold matchesReplyBytes
  cases parses : hickory.fromBytes reply with
  | error error => simp
  | ok message =>
      by_cases same_id : message.header.id = key.id
      · cases first : message.queries.head? with
        | none => simp [same_id, first]
        | some question => simp [same_id, first, and_assoc]
      · simp [same_id]

/-- The targets are those of the CNAME records of the answers. -/
theorem mem_extractCnameTargets {hickory : Hickory} {response : Bytes}
    {message : DnsMessage hickory.Name} (parses : hickory.fromBytes response = .ok message)
    {target : Str} :
    target ∈ extractCnameTargets hickory response ↔
      ∃ name, .cname name ∈ message.answers ∧ hickory.nameOf name = target := by
  simp only [extractCnameTargets, parses, List.mem_filterMap]
  constructor
  · rintro ⟨record, mem, read⟩
    cases record with
    | cname name => exact ⟨name, mem, Option.some.inj read⟩
    | other data => cases read
  · rintro ⟨name, mem, rfl⟩
    exact ⟨.cname name, mem, rfl⟩

end PrivacyEngine
