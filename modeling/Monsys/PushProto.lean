/-
  The messages of the push server: `protocol/push.proto`, package `monsys.protocol.push`.

  A body of `PushMsg` is `none` where `has..()` of the generated class is false.  Field numbers and
  the numbers of the message types belong to the wire format, which netty's protobuf codec handles
  below the handlers; they are left out.
-/
namespace Monsys.Push

/-- `MsgType`. -/
inductive MsgType
  | pushClientLogin
  | pushClientLoginRsp
  | bind
  | bindRsp
  | connect
  | connectRsp
  | getFgwList
  | getFgwListRsp
  | getDevList
  | getDevListRsp
  | getDevInfo
  | getDevInfoRsp
  | setDevInfo
  | setDevInfoRsp
  | adminClientLogin
  | adminClientLoginRsp
  | userRegister
  | userRegisterRsp
  | heartbeat
  | response
deriving DecidableEq, Repr

/-- `IdValuePair`. -/
structure IdValuePair where
  id : Int
  value : Int
deriving DecidableEq, Repr

/-- `FGatewayInfo`. -/
structure FGatewayInfo where
  id : String
  name : String
  desc : String
deriving DecidableEq, Repr

/-- `DeviceInfo`. -/
structure DeviceInfo where
  addr : Int
  type : Int
  name : String
deriving DecidableEq, Repr

/-! ## Bodies -/

/-- A body that names a gateway and nothing else. -/
structure DeviceBody where
  deviceId : String
deriving DecidableEq, Repr

abbrev PushClientLogin := DeviceBody
abbrev Bind := DeviceBody
abbrev Connect := DeviceBody
abbrev GetDevList := DeviceBody

/-- The body of an answer that holds a code and nothing else. -/
structure CodeBody where
  code : Int
deriving DecidableEq, Repr

abbrev PushClientLoginRsp := CodeBody
abbrev BindRsp := CodeBody
abbrev ConnectRsp := CodeBody
abbrev SetDevInfoRsp := CodeBody
abbrev UserRegisterRsp := CodeBody

/-- `AdminClientLogin`. -/
structure AdminClientLogin where
  account : String
  password : String
deriving DecidableEq, Repr

/-- A code and a list of gateways. -/
structure FgwListBody where
  code : Int
  fgwInfos : List FGatewayInfo := []
deriving DecidableEq, Repr

abbrev AdminClientLoginRsp := FgwListBody
abbrev GetFgwListRsp := FgwListBody

/-- `GetDevListRsp`. -/
structure GetDevListRsp where
  code : Int
  devInfos : List DeviceInfo := []
deriving DecidableEq, Repr

/-- `GetDevInfo`. -/
structure GetDevInfo where
  deviceId : String
  addr : Int
  itemIds : List Int := []
deriving DecidableEq, Repr

/-- `GetDevInfoRsp`. -/
structure GetDevInfoRsp where
  code : Int
  idValuePairs : List IdValuePair := []
deriving DecidableEq, Repr

/-- `SetDevInfo`. -/
structure SetDevInfo where
  deviceId : String
  addr : Int
  idValuePairs : List IdValuePair := []
deriving DecidableEq, Repr

/-- `UserRegister`. -/
structure UserRegister where
  nickname : String
  account : String
  password : String
deriving DecidableEq, Repr

/-- `PushMsg`.  `GetFgwList` and `Heartbeat` have no fields. -/
structure PushMsg where
  version : Int
  type : MsgType
  sequence : Int
  pushClientLogin : Option PushClientLogin := none
  pushClientLoginRsp : Option PushClientLoginRsp := none
  bind : Option Bind := none
  bindRsp : Option BindRsp := none
  connect : Option Connect := none
  connectRsp : Option ConnectRsp := none
  getFgwList : Option Unit := none
  getFgwListRsp : Option GetFgwListRsp := none
  getDevList : Option GetDevList := none
  getDevListRsp : Option GetDevListRsp := none
  getDevInfo : Option GetDevInfo := none
  getDevInfoRsp : Option GetDevInfoRsp := none
  setDevInfo : Option SetDevInfo := none
  setDevInfoRsp : Option SetDevInfoRsp := none
  adminClientLogin : Option AdminClientLogin := none
  adminClientLoginRsp : Option AdminClientLoginRsp := none
  userRegister : Option UserRegister := none
  userRegisterRsp : Option UserRegisterRsp := none
  heartbeat : Option Unit := none
deriving DecidableEq, Repr

/-- `MsgUtil.newPushMsgBuilder`. -/
def newPushMsg (type : MsgType) (seq : Int) : PushMsg where
  version := 1
  type := type
  sequence := seq

end Monsys.Push
