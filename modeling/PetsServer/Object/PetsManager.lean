import PetsServer.NetMsg.SMessage

/-!
# The message handlers of `PetsManager`

A handler reads the second byte of the message and switches on it. Of the cases only that of a login
does more: it calls `OnNetLoginMsg` through the packet's pointer to the player's object. The model
of a handler returns the case it reaches.
-/

namespace PetsServer

/-- The cases of the three `switch` statements. -/
inductive SwitchCase
  | login (kind : LoginKind)
  | chat (kind : ChatKind)
  | move (kind : MoveKind)
  | default
  deriving DecidableEq, Repr

/-- The `case` of `OnDispatchLoginMsg` for a byte, if there is one. -/
def LoginKind.ofByte (b : Byte) : Option LoginKind :=
  [login, register, setInfo, getInfo].find? (·.toByte = b)

/-- The `case` of `OnDispatchChatMsg` for a byte, if there is one. -/
def ChatKind.ofByte (b : Byte) : Option ChatKind :=
  [whisper, broadcast, system, room].find? (·.toByte = b)

/-- The `case` of `OnDispatchMoveMsg` for a byte, if there is one. -/
def MoveKind.ofByte (b : Byte) : Option MoveKind :=
  [move, position, jump].find? (·.toByte = b)

/-- `Pet::OnNetLoginMsg`, up to the text it hands to `Parse`: `str` begins after the two protocol
bytes. -/
def Pet.onNetLoginMsg (pMsg : List Byte) : Except Fault (List Byte) := readText pMsg 2

/-- What the handlers share: the second byte is read and switched on. -/
def switchProtocol (cases : Byte → Except Fault SwitchCase) (basemsg : List Byte) :
    Except Fault SwitchCase := do
  let protocol ← readByte basemsg 1
  cases protocol

/-- `PetsManager::OnDispatchLoginMsg` -/
def onDispatchLoginMsg (_dnid : Dnid) (basemsg : List Byte) (_pet : Option Pet) :
    Except Fault SwitchCase :=
  switchProtocol (fun protocol =>
    match LoginKind.ofByte protocol with
    | some .login => do
      -- the call goes through the pointer `pet`, which `OnNetLoginMsg` does not read
      let _str ← Pet.onNetLoginMsg basemsg
      .ok (.login .login)
    | some kind => .ok (.login kind)
    | none => .ok .default) basemsg

/-- `PetsManager::OnDispatchChatMsg` -/
def onDispatchChatMsg (_dnid : Dnid) (basemsg : List Byte) (_pet : Option Pet) :
    Except Fault SwitchCase :=
  switchProtocol (fun protocol => .ok ((ChatKind.ofByte protocol).elim .default .chat)) basemsg

/-- `PetsManager::OnDispatchMoveMsg` -/
def onDispatchMoveMsg (_dnid : Dnid) (basemsg : List Byte) (_pet : Option Pet) :
    Except Fault SwitchCase :=
  switchProtocol (fun protocol => .ok ((MoveKind.ofByte protocol).elim .default .move)) basemsg

/-! ## The reads of the handlers -/

theorem switchProtocol_singleton (cases : Byte → Except Fault SwitchCase) (a : Byte) :
    switchProtocol cases [a] = .error .outOfBounds := rfl

theorem switchProtocol_cons_cons (cases : Byte → Except Fault SwitchCase) (a b : Byte)
    (rest : List Byte) : switchProtocol cases (a :: b :: rest) = cases b := rfl

theorem onDispatchChatMsg_cons_cons (dnid : Dnid) (a b : Byte) (rest : List Byte)
    (pet : Option Pet) : ∃ r, onDispatchChatMsg dnid (a :: b :: rest) pet = .ok r :=
  ⟨_, switchProtocol_cons_cons _ a b rest⟩

theorem onDispatchMoveMsg_cons_cons (dnid : Dnid) (a b : Byte) (rest : List Byte)
    (pet : Option Pet) : ∃ r, onDispatchMoveMsg dnid (a :: b :: rest) pet = .ok r :=
  ⟨_, switchProtocol_cons_cons _ a b rest⟩

theorem Pet.onNetLoginMsg_cons_cons (a b : Byte) (rest : List Byte) :
    Pet.onNetLoginMsg (a :: b :: rest) =
      if (0 : Byte) ∈ rest then .ok (rest.takeWhile (· ≠ 0)) else .error .outOfBounds :=
  readText_eq _ _

/-- Of the login messages only the login proper reads on: its text must have an end. -/
theorem onDispatchLoginMsg_cons_cons (dnid : Dnid) (a b : Byte) (rest : List Byte)
    (pet : Option Pet) :
    onDispatchLoginMsg dnid (a :: b :: rest) pet = .error .outOfBounds ↔
      b = LoginKind.login.toByte ∧ (0 : Byte) ∉ rest := by
  rw [onDispatchLoginMsg, switchProtocol_cons_cons]
  by_cases hb : b = LoginKind.login.toByte
  · subst hb
    change (Pet.onNetLoginMsg _ >>= fun _ => _) = _ ↔ _
    rw [Pet.onNetLoginMsg_cons_cons]
    split <;> simp_all [bind, Except.bind]
  · have hkind : LoginKind.ofByte b ≠ some .login := by
      intro h
      have hp := List.find?_some (p := fun kind : LoginKind => kind.toByte = b) h
      exact hb (of_decide_eq_true hp).symm
    simp only [hb, false_and, iff_false]
    split
    · rename_i h
      exact absurd h hkind
    · intro h; cases h
    · intro h; cases h

end PetsServer
