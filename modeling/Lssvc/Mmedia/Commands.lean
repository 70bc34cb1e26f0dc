import Lssvc.Mmedia.Amf

set_option autoImplicit false

namespace Lssvc.Mmedia

-- A string literal of the source.
def text (literal : String) : Bytes := literal.toList.map fun c => UInt8.ofNat c.toNat

def RTMP_APP_INDEX : Int := 2

abbrev AMFObject := List AMFAny

def AMFAny.name : AMFAny → Bytes
  | .number name _ => name
  | .boolean name _ => name
  | .string name _ => name
  | .longString name _ => name
  | .object name _ => name
  | .date name _ _ => name
  | .null => []

-- The accessors of AMFAny fall back to a default where the type is another. The
-- bytes of a number are those of 0.0 then.
def AMFAny.str : AMFAny → Bytes
  | .string _ str => str
  | .longString _ str => str
  | _ => []

def AMFAny.getNumber : AMFAny → Bytes
  | .number _ bytes => bytes
  | _ => List.replicate 8 0

def AMFAny.getObject : AMFAny → Option AMFObject
  | .object _ properties => some properties
  | _ => none

-- AMFObject::property. It goes into an object whose own name is another.
mutual
def propertyNamed (name : Bytes) : AMFObject → Option AMFAny
  | [] => none
  | p :: rest => if p.name = name then some p else (propertyInside name p).or (propertyNamed name rest)

def propertyInside (name : Bytes) : AMFAny → Option AMFAny
  | .object _ properties => propertyNamed name properties
  | _ => none
end

def property (index : Int) (obj : AMFObject) : Option AMFAny :=
  if index < 0 ∨ index ≥ obj.length then none else obj[index.toNat]?

inductive CommandFault where
  | nullPointer
  | decoding (fault : AmfFault)
deriving DecidableEq, Repr

def deref {α : Type} : Option α → Except CommandFault α
  | some value => .ok value
  | none => .error .nullPointer

-- What a handler has taken out of the object. Nothing it does with that looks at
-- the object again.
inductive Command where
  | connect (tcUrl : Bytes) (app objectEncoding : Option Bytes)
  | createStream (tranId : Bytes)
  | play (tranId name : Bytes)
  | publish (tranId name : Bytes)
  | result (id : Bytes)
  | error (description : Bytes)
  | notSupported (method : Bytes)
  | decodeFailed
deriving DecidableEq, Repr

def handleConnect (obj : AMFObject) : Except CommandFault Command := do
  let tcUrl ← deref (propertyNamed (text "tcUrl") obj)
  let subObj ← deref (property RTMP_APP_INDEX obj)
  match subObj.getObject with
  | none => .ok (.connect tcUrl.str none none)
  | some subObj =>
      let app ← deref (propertyNamed (text "app") subObj)
      .ok (.connect tcUrl.str (some app.str) ((propertyNamed (text "objectEncoding") subObj).map AMFAny.getNumber))

def handleCreateStream (obj : AMFObject) : Except CommandFault Command := do
  let tranId ← deref (property 1 obj)
  .ok (.createStream tranId.getNumber)

def handlePlay (obj : AMFObject) : Except CommandFault Command := do
  let tranId ← deref (property 1 obj)
  let name ← deref (property 3 obj)
  .ok (.play tranId.getNumber name.str)

def handlePublish (obj : AMFObject) : Except CommandFault Command := do
  let tranId ← deref (property 1 obj)
  let name ← deref (property 3 obj)
  .ok (.publish tranId.getNumber name.str)

def handleResult (obj : AMFObject) : Except CommandFault Command := do
  let id ← deref (property 1 obj)
  .ok (.result id.getNumber)

def handleError (obj : AMFObject) : Except CommandFault Command := do
  let subObj ← deref (property 3 obj)
  let subObj ← deref subObj.getObject
  let description ← deref (propertyNamed (text "description") subObj)
  .ok (.error description.str)

-- commands_.find
def commands (method : Bytes) : Option (AMFObject → Except CommandFault Command) :=
  if method = text "connect" then some handleConnect
  else if method = text "createStream" then some handleCreateStream
  else if method = text "_result" then some handleResult
  else if method = text "_error" then some handleError
  else if method = text "play" then some handlePlay
  else if method = text "publish" then some handlePublish
  else none

-- An AMF3 command has a byte in front. Behind an empty payload the size is -1
-- then, which decode takes for nothing to read, as it takes 0.
def commandBody (amf3 : Bool) (payload : Bytes) : Bytes := if amf3 then payload.drop 1 else payload

def handleAmfCommand (amf3 : Bool) (payload : Bytes) : Except CommandFault Command :=
  match decode false (commandBody amf3 payload) with
  | .error fault => .error (.decoding fault)
  | .ok decoded =>
      if decoded.returned.isNone then .ok .decodeFailed
      else do
        let method ← deref (property 0 decoded.properties)
        match commands method.str with
        | none => .ok (.notSupported method.str)
        | some handler => handler decoded.properties

end Lssvc.Mmedia
