import FalconLib.Base.Json

/-!
# The messages of the instrument hub

A request is published on one fixed subject and its response on another. All clients share
both; the only mark a message can carry is its timestamp.
-/

namespace FalconLib.Comms

open FalconLib.Base

/-- `if (j.contains(key)) j.at(key).get_to(field)`. -/
def getTo {α : Type} (get : Json → Except JsonFailure α) (key : String) (field : α) (j : Json) :
    Except JsonFailure α :=
  match j.find? key with
  | some member => get member
  | none => .ok field

/-- A timestamp that the message does not set keeps no value. -/
def getTimestamp (j : Json) : Except JsonFailure (Option Int32) :=
  getTo (fun member => member.getInt32.map some) "timestamp" none j

def timestampJson (timestamp : Int32) : Json :=
  .integer ⟨timestamp.toInt, le_trans (by decide) timestamp.le_toInt,
    lt_trans timestamp.toInt_lt (by decide)⟩

/-! ## Requests -/

structure MeasureCommand where
  timestamp : Int32
  request : String

def MeasureCommand.toJson (c : MeasureCommand) : Json :=
  .object [("request", .string c.request), ("timestamp", timestampJson c.timestamp)]

structure StateRequest where
  timestamp : Int32

def StateRequest.toJson (c : StateRequest) : Json :=
  .object [("timestamp", timestampJson c.timestamp)]

structure PortRequest where
  timestamp : Int32

def PortRequest.toJson (c : PortRequest) : Json :=
  .object [("timestamp", timestampJson c.timestamp)]

structure DeviceConfigRequest where
  timestamp : Int32

def DeviceConfigRequest.toJson (c : DeviceConfigRequest) : Json :=
  .object [("timestamp", timestampJson c.timestamp)]

/-! ## Responses -/

structure MeasureResponse where
  stream : String
  timestamp : Option Int32
  channel : String
deriving DecidableEq

def MeasureResponse.fromJson (j : Json) : Except JsonFailure MeasureResponse := do
  let channel ← getTo Json.getString "channel" "" j
  let stream ← getTo Json.getString "stream" "" j
  let timestamp ← getTimestamp j
  pure ⟨stream, timestamp, channel⟩

structure StateResponse where
  response : String
  timestamp : Option Int32
deriving DecidableEq

def StateResponse.fromJson (j : Json) : Except JsonFailure StateResponse := do
  let response ← getTo Json.getString "response" "" j
  let timestamp ← getTimestamp j
  pure ⟨response, timestamp⟩

structure PortPayload where
  knobs : String
  meters : String
  timestamp : Option Int32
deriving DecidableEq

def PortPayload.fromJson (j : Json) : Except JsonFailure PortPayload := do
  let knobs ← getTo Json.getString "knobs" "" j
  let meters ← getTo Json.getString "meters" "" j
  let timestamp ← getTimestamp j
  pure ⟨knobs, meters, timestamp⟩

structure DeviceConfigResponse where
  response : String
  timestamp : Option Int32
deriving DecidableEq

def DeviceConfigResponse.fromJson (j : Json) : Except JsonFailure DeviceConfigResponse := do
  let response ← getTo Json.getString "response" "" j
  let timestamp ← getTimestamp j
  pure ⟨response, timestamp⟩

/-! ## The four request calls -/

/-- What one call asks, with the fields of its message. -/
inductive Request where
  | state (message : StateRequest)
  | measure (message : MeasureCommand)
  | config (message : DeviceConfigRequest)
  | port (message : PortRequest)

inductive Response where
  | state (message : StateResponse)
  | measure (message : MeasureResponse)
  | config (message : DeviceConfigResponse)
  | port (message : PortPayload)
deriving DecidableEq

namespace Request

/-- `make_state_request_subject` and its three siblings. -/
def requestSubject : Request → String
  | state _ => "INSTRUMENTHUB.STATE_REQUEST"
  | measure _ => "INSTRUMENTHUB.MEASURE_COMMAND"
  | config _ => "INSTRUMENTHUB.DEVICE_CONFIG_REQUEST"
  | port _ => "INSTRUMENTHUB.PORT_REQUEST"

/-- `make_state_response_subject` and its three siblings. -/
def responseSubject : Request → String
  | state _ => "FALCON.STATE_RESPONSE"
  | measure _ => "FALCON.MEASURE_RESPONSE"
  | config _ => "FALCON.DEVICE_CONFIG_RESPONSE"
  | port _ => "FALCON.PORT_PAYLOAD"

def toJson : Request → Json
  | state message => message.toJson
  | measure message => message.toJson
  | config message => message.toJson
  | port message => message.toJson

def timeoutText : Request → String
  | state _ => "Timeout waiting for StateResponse"
  | measure _ => "Timeout waiting for MeasureResponse"
  | config _ => "Timeout waiting for DeviceConfigResponse"
  | port _ => "Timeout waiting for PortResponse"

/-- `from_json` of the response that belongs to the request. -/
def responseFromJson (q : Request) (j : Json) : Except JsonFailure Response :=
  match q with
  | state _ => (StateResponse.fromJson j).map .state
  | measure _ => (MeasureResponse.fromJson j).map .measure
  | config _ => (DeviceConfigResponse.fromJson j).map .config
  | port _ => (PortPayload.fromJson j).map .port

/-- What the callback puts into the promise for a message. The exception is stored as a copy
of its base class, which has a text of its own. A number out of range has no defined effect. -/
def decode (json : JsonLibrary) (q : Request) (text : String) : Except JsonFailure Response :=
  match json.parse text with
  | .error _ => .error (.exception "std::exception")
  | .ok j =>
    match q.responseFromJson j with
    | .ok r => .ok r
    | .error (.exception _) => .error (.exception "std::exception")
    | .error .undefined => .error .undefined

end Request

end FalconLib.Comms
