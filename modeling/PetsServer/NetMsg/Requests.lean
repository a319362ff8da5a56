import PetsServer.NetMsg.SMessage

/-!
# The request messages

What a client builds: the structs that `DECLARE_MSG_MAP_BEGIN` and `DECLARE_MSG` declare, one for
each category and one for each kind in it. The constructor of a struct writes one byte, the
`_protocol` of its base, after the constructor of the base has run. `SMessage::_protocol` lies at
offset 0, and the `_protocol` of a category's base message at offset 1. What follows are the fields
of the message, the padding before them included, and its flexible array.
-/

namespace PetsServer

/-- The constructor that `DECLARE_MSG_MAP_BEGIN(name, SMessage, MessageType)` declares. -/
def declareMsgMap (messageType : Byte) (object : List Byte) : List Byte := object.set 0 messageType

/-- The constructor that `DECLARE_MSG(name, BaseMessage, MessageType)` declares, for the constructor
of `BaseMessage`. -/
def declareMsg (baseMessage : List Byte → List Byte) (messageType : Byte) (object : List Byte) :
    List Byte :=
  (baseMessage object).set 1 messageType

/-! ## The categories -/

/-- `SLoginBaseMsg` -/
def sLoginBaseMsg : List Byte → List Byte := declareMsgMap MessageBase.login.toByte

/-- `SChatBaseMsg` -/
def sChatBaseMsg : List Byte → List Byte := declareMsgMap MessageBase.chat.toByte

/-- `SMoveBaseMsg` -/
def sMoveBaseMsg : List Byte → List Byte := declareMsgMap MessageBase.move.toByte

/-! ## The kinds -/

/-- `SLoginMsg` -/
def sLoginMsg : List Byte → List Byte := declareMsg sLoginBaseMsg LoginKind.login.toByte

/-- `SRegisterMsg`, which is declared with the kind `KKDD_LOGINMSG_LOGIN`. -/
def sRegisterMsg : List Byte → List Byte := declareMsg sLoginBaseMsg LoginKind.login.toByte

/-- `SChatBaseWhisperMsg` -/
def sChatBaseWhisperMsg : List Byte → List Byte := declareMsg sChatBaseMsg ChatKind.whisper.toByte

/-- `SChatBaseBroadcastMsg` -/
def sChatBaseBroadcastMsg : List Byte → List Byte :=
  declareMsg sChatBaseMsg ChatKind.broadcast.toByte

/-- `SChatBaseSystemMsg` -/
def sChatBaseSystemMsg : List Byte → List Byte := declareMsg sChatBaseMsg ChatKind.system.toByte

/-- `SChatBaseRoomMsg` -/
def sChatBaseRoomMsg : List Byte → List Byte := declareMsg sChatBaseMsg ChatKind.room.toByte

/-- `SMoveMoveBaseMsg` -/
def sMoveMoveBaseMsg : List Byte → List Byte := declareMsg sMoveBaseMsg MoveKind.move.toByte

/-- The request messages that are declared: `SQLoginMsg` and so on. -/
inductive Request
  | login | register | whisper | broadcast | system | room | move
  deriving DecidableEq, Repr

namespace Request

/-- The constructor of the request message. -/
def construct : Request → List Byte → List Byte
  | login => sLoginMsg
  | register => sRegisterMsg
  | whisper => sChatBaseWhisperMsg
  | broadcast => sChatBaseBroadcastMsg
  | system => sChatBaseSystemMsg
  | room => sChatBaseRoomMsg
  | move => sMoveMoveBaseMsg

/-- The category that the request message belongs to. -/
def category : Request → MessageBase
  | login | register => .login
  | whisper | broadcast | system | room => .chat
  | move => .move

/-- The byte that the constructor writes behind the category. -/
def protocol : Request → Byte
  | login | register => LoginKind.login.toByte
  | whisper => ChatKind.whisper.toByte
  | broadcast => ChatKind.broadcast.toByte
  | system => ChatKind.system.toByte
  | room => ChatKind.room.toByte
  | move => MoveKind.move.toByte

/-- A message is built in a block, which holds `a` and `b` where the constructor writes. -/
def build (request : Request) (a b : Byte) (payload : List Byte) : List Byte :=
  request.construct (a :: b :: payload)

/-- The constructors write the two protocol bytes and nothing else. -/
theorem build_eq (request : Request) (a b : Byte) (payload : List Byte) :
    request.build a b payload = request.category.toByte :: request.protocol :: payload := by
  cases request <;> rfl

end Request

end PetsServer
