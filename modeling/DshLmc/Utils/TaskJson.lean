import DshLmc.Utils.TangoUtils
import DshLmc.Utils.Task

/-!
# Tasks as JSON

A task is handed to its command handler as JSON, which `EncodeToJson` writes and `ParseFromJson`
reads into a `TaskData`. The argument of the task becomes a `DataValue`.
-/

namespace DshLmc

open Tango

/-- The numbers of `Task::TaskStatus`. -/
def TaskStatus.code : TaskStatus → Int
  | .unknown => 0
  | .init => 1
  | .idle => 2
  | .running => 3
  | .completed => 4
  | .failed => 5
  | .aborted => 6
  | .expired => 7
  | .canceled => 8

variable (F : FloatFormat)

namespace Task

/-- The members `EncodeToJson` writes for every task. A missing time is an empty text. -/
def jsonMembers (toISO8601Ms : Time → String) (t : Task) : Json.Members UInt64 :=
  Json.Members.set "id" (.string t.id) []
    |>.set "name" (.string t.cmdName)
    |>.set "priority" (.int t.priority)
    |>.set "status" (.int t.status.code)
    |>.set "status_info" (.string t.statusInfo)
    |>.set "is_utc" (.bool t.useUTC)
    |>.set "creation_time" (.string (toISO8601Ms t.creationTime))
    |>.set "activation_time"
      (.string (if t.hasActivationTime then toISO8601Ms t.activationTime else ""))
    |>.set "expiration_time"
      (.string (if t.hasExpirationTime then toISO8601Ms t.expirationTime else ""))
    |>.set "is_asynch" (.bool t.isAsynch)
    |>.set "status_attr_name" (.string t.statusAttrName)
    |>.set "seq_id" (.string t.sequenceId)
    |>.set "seq_name" (.string t.sequenceName)

/-- `Task::EncodeToJson` into an empty value. The text of an instant is `to_ISO8601_ms`. -/
def encodeToJson (toISO8601Ms : Time → String) (t : Task) : Option (Json UInt64) :=
  let root := t.jsonMembers toISO8601Ms
  if t.hasArgin then
    let argObj :=
      Json.Members.set "type" (.int t.arginType) [] |>.set "format" (.int t.arginFormat)
    (TangoUtils.corbaAnyToJsonObj F argObj t.cmdArgin t.arginType t.arginFormat).map fun argObj =>
      .object (root.set "arg" (.object argObj))
  else some (.object root)

end Task

/-- A `DataValue`. The C++ type of the object is that of its value. -/
structure DataValue where
  type : Int
  format : Int
  value : Value

/-- The constructor of `ScalarDataValue`. It hands `type` to the base class where its parameter is
`_type`: the member, which holds what was in the memory before. -/
def DataValue.scalar (uninitialised : Int) (T : ElementType) (_type : Int) (value : T.Carrier) :
    DataValue where
  type := uninitialised
  format := Tango.scalar
  value := .scalar T value

/-- The constructor of `SpectrumDataValue`. -/
def DataValue.spectrum (uninitialised : Int) (T : ElementType) (_type : Int)
    (values : List T.Carrier) : DataValue where
  type := uninitialised
  format := Tango.spectrum
  value := .spectrum T values

structure TaskData where
  name : String
  id : String
  priority : Int
  status : Int
  isUTC : Bool
  creationTime : String
  hasActivationTime : Bool
  activationTime : String
  hasExpirationTime : Bool
  expirationTime : String
  dataType : Int
  dataFormat : Int
  hasData : Bool
  data : Option DataValue

def TaskData.create : TaskData where
  name := ""
  id := ""
  priority := 1
  status := TaskStatus.unknown.code
  isUTC := false
  creationTime := ""
  hasActivationTime := false
  activationTime := ""
  hasExpirationTime := false
  expirationTime := ""
  dataType := -1
  dataFormat := -1
  hasData := false
  data := none

/-- How a call fails: it returns -1, or lets an exception of JsonCpp or of Tango through. -/
inductive ParseFailure where
  | code
  | json
  | devFailed (reason description : String)

namespace TaskUtils

/-- A reading that throws where JsonCpp cannot convert. -/
def converted {α : Type} (reading : Option α) : Except ParseFailure α :=
  reading.elim (throw .json) pure

/-- A member the code tests with `isMember` before it reads it. -/
def requiredMember (members : Json.Members UInt64) (key : String) :
    Except ParseFailure (Json UInt64) :=
  (members.get? key).elim (throw .code) pure

/-- The test before an element is read as a `T`. -/
def isElement : ElementType → Json UInt64 → Bool
  | .string, j => j.isString
  | .boolean, j => j.isBool
  | _, j => j.isNumeric

def asElement : (T : ElementType) → Json UInt64 → Option T.Carrier
  | .state, j => (j.asUInt F.toReals).map UInt32.ofNat
  | .float, j => (j.asReal F.toReals).map F.toFloat
  | .double, j => j.asReal F.toReals
  | .long, j => (j.asInt F.toReals).map Int32.ofInt
  | .short, j => (j.asInt F.toReals).map Int16.ofInt
  | .string, j => j.asString F.toReals
  | .boolean, j => j.asBool F.toReals

def readElement (T : ElementType) (j : Json UInt64) : Except ParseFailure T.Carrier :=
  if isElement T j then converted (asElement F T j) else throw .code

/-- What the functions that create a `DataValue` have in common. A null pointer fails with the code,
as `ParseDataFieldFromJson` does when it gets one. -/
def createDataFromJson (T : ElementType) (uninitialised : Int) (root : Json UInt64)
    (dataType : Int) : Except ParseFailure DataValue :=
  if root.isEmpty then throw .code
  else
    match root with
    | .array items => do
        let values ← items.mapM (readElement F T)
        return .spectrum uninitialised T dataType values
    | _ => do
        let value ← readElement F T root
        return .scalar uninitialised T dataType value

def createBoolDataFromJson := createDataFromJson F .boolean

def createFloatDataFromJson := createDataFromJson F .float

/-- `TaskUtils::CreateDoubleDataFromJson`, which nothing calls. -/
def createDoubleDataFromJson := createDataFromJson F .double

def createStringDataFromJson := createDataFromJson F .string

def createIntDataFromJson (uninitialised : Int) (root : Json UInt64) (dataType : Int) :
    Except ParseFailure DataValue :=
  if dataType = devLong then createDataFromJson F .long uninitialised root dataType
  else if dataType = devShort then createDataFromJson F .short uninitialised root dataType
  else if dataType = devEnum then createDataFromJson F .short uninitialised root dataType
  else if dataType = devState then createDataFromJson F .state uninitialised root dataType
  else throw .code

/-- The switch of `ParseDataFieldFromJson`. -/
def dataFromJson (uninitialised : Int) (root : Json UInt64) (dataType : Int) :
    Except ParseFailure DataValue :=
  if dataType = devFloat then createFloatDataFromJson F uninitialised root dataType
  else if dataType = devDouble then createFloatDataFromJson F uninitialised root dataType
  else if dataType = devLong then createIntDataFromJson F uninitialised root dataType
  else if dataType = devShort then createIntDataFromJson F uninitialised root dataType
  else if dataType = devEnum then createIntDataFromJson F uninitialised root dataType
  else if dataType = devString then createStringDataFromJson F uninitialised root dataType
  else if dataType = devBoolean then createBoolDataFromJson F uninitialised root dataType
  else if dataType = devState then createIntDataFromJson F uninitialised root dataType
  else
    throw (.devFailed "PARSE_DATA_FIELD_FROM_JSON_FAILED"
      ("Unsupported data type (" ++ toString dataType ++ ")!"))

def parseDataFieldFromJson (uninitialised : Int) (taskData : TaskData)
    (root : Json.Members UInt64) : Except ParseFailure TaskData :=
  let argRoot := (root.get? "arg").getD .null
  if argRoot.isEmpty then return { taskData with hasData := false, data := none }
  else
    match argRoot with
    | .object arg => do
        let type ← requiredMember arg "type"
        let _ ← requiredMember arg "format"
        let dataRoot ← requiredMember arg "value"
        let dataType ← converted (type.asInt F.toReals)
        let data ← dataFromJson F uninitialised dataRoot dataType
        return { taskData with hasData := true, data := some data }
    | _ => throw .json

/-- A time of `ParseFromJson` and its flag. -/
def timeMember (root : Json.Members UInt64) (key : String) : Except ParseFailure (Bool × String) :=
  match root.get? key with
  | some time => do
      let text ← converted (time.asString F.toReals)
      return (true, text)
  | none => return (false, "")

/-- `TaskUtils::ParseFromJson`, called with a device. -/
def parseFromJson (uninitialised : Int) (taskData : TaskData) (root : Json UInt64) :
    Except ParseFailure TaskData :=
  match root with
  | .null => throw .code
  | .object root => do
      let id ← converted ((← requiredMember root "id").asString F.toReals)
      let name ← converted ((← requiredMember root "name").asString F.toReals)
      let priority ← converted ((← requiredMember root "priority").asInt F.toReals)
      let status ← converted ((← requiredMember root "status").asInt F.toReals)
      let isUTC ← converted ((← requiredMember root "is_utc").asBool F.toReals)
      let creationTime ← converted ((← requiredMember root "creation_time").asString F.toReals)
      let activation ← timeMember F root "activation_time"
      let expiration ← timeMember F root "expiration_time"
      parseDataFieldFromJson F uninitialised
        { taskData with
          id := id
          name := name
          priority := priority
          status := status
          isUTC := isUTC
          creationTime := creationTime
          hasActivationTime := activation.1
          activationTime := activation.2
          hasExpirationTime := expiration.1
          expirationTime := expiration.2 }
        root
  | _ => throw .json

end TaskUtils

end DshLmc
