import SwupdateIpc.Control.Arguments

/-!
# Requests parsed by the daemon

The daemon tells a request by the magic and the type of a message, and takes its
arguments from the members of the variant that the type stands for (`readRequest`).
A text is what stands in its member before the first NUL, so the daemon gets bytes
that need not be the text of a client.

It parses every message of the client, and gets the arguments as they are cut
(`readRequest_asHeader`). When they are representable, it can tell from them the
request of the client, up to settings that stand for their defaults
(`Request.recovered`). So two such requests are parsed alike exactly when they agree up
to these (`requests_parsed`).
-/

set_option autoImplicit false

namespace SwupdateIpc

open Foundations Wire

/-! ## What the daemon gets -/

/-- A request as the daemon gets it. Its codes are those of the wire, and its texts are
bytes. -/
inductive Received where
  | install (apiversion : UInt32) (source dryRun : Int32) (len : Nat)
      (info softwareSet runningMode : List UInt8) (disableStoreSwu : List UInt8)
  | getStatus
  | postUpdate
  | subprocess (source cmd timeout : Int32)
  | setAesKey (key ivt : List UInt8)
  | setUpdateState (state : Int32)
  | getUpdateState
  | setVersionsRange (minimum maximum current updateType : List UInt8)
  | getHwRevision
  | setSwupdateVars (varnamespace varname varvalue : List UInt8)
  | getSwupdateVars (varnamespace varname : List UInt8)
  | setDeltaUrl (filename url : List UInt8)
  deriving DecidableEq, Repr

section Reading

variable (T : Target)

/-- An `int` of a message. -/
def intAt (m : Record (Header.ipcMessage T.sizeT)) (path : List Ident) : Int32 :=
  i32FromNeBytes T (m.read path)

/-- The text of C in a member of a message. -/
def cStringAt (m : Record (Header.ipcMessage T.sizeT)) (path : List Ident) : List UInt8 :=
  cString (m.read path)

/-- The code of an update state, in the first bytes of the variant without a struct. -/
def codeAt (m : Record (Header.ipcMessage T.sizeT)) : Int32 :=
  i32FromNeBytes T ((m.read [.data, .msg]).take 4)

/-- Parse a message, with the constants and the types of the header. -/
def readRequest (m : Record (Header.ipcMessage T.sizeT)) : Option Received :=
  if intAt T m [.magic] ≠ Header.IPC_MAGIC then none
  else match Header.Msgtype.ofValue? (intAt T m [.type]) with
    | some .reqInstall =>
        let req : List Ident := [.data, .instmsg, .req]
        some (.install (u32FromNeBytes T (m.read (req ++ [.apiversion])))
          (intAt T m (req ++ [.source])) (intAt T m (req ++ [.dryRun]))
          (T.order.decode (m.read (req ++ [.len]))) (cStringAt T m (req ++ [.info]))
          (cStringAt T m (req ++ [.softwareSet])) (cStringAt T m (req ++ [.runningMode]))
          (m.read (req ++ [.disableStoreSwu])))
    | some .getStatus => some .getStatus
    | some .postUpdate => some .postUpdate
    | some .swupdateSubprocess =>
        some (.subprocess (intAt T m [.data, .procmsg, .source])
          (intAt T m [.data, .procmsg, .cmd]) (intAt T m [.data, .procmsg, .timeout]))
    | some .setAesKey =>
        some (.setAesKey (cStringAt T m [.data, .aeskeymsg, .keyAscii])
          (cStringAt T m [.data, .aeskeymsg, .ivtAscii]))
    | some .setUpdateState => some (.setUpdateState (codeAt T m))
    | some .getUpdateState => some .getUpdateState
    | some .setVersionsRange =>
        some (.setVersionsRange (cStringAt T m [.data, .versions, .minimumVersion])
          (cStringAt T m [.data, .versions, .maximumVersion])
          (cStringAt T m [.data, .versions, .currentVersion])
          (cStringAt T m [.data, .versions, .updateType]))
    | some .getHwRevision => some .getHwRevision
    | some .setSwupdateVars =>
        some (.setSwupdateVars (cStringAt T m [.data, .vars, .varnamespace])
          (cStringAt T m [.data, .vars, .varname]) (cStringAt T m [.data, .vars, .varvalue]))
    | some .getSwupdateVars =>
        some (.getSwupdateVars (cStringAt T m [.data, .vars, .varnamespace])
          (cStringAt T m [.data, .vars, .varname]))
    | some .setDeltaUrl =>
        some (.setDeltaUrl (cStringAt T m [.data, .dwlUrl, .filename])
          (cStringAt T m [.data, .dwlUrl, .url]))
    | _ => none

end Reading

/-! ## The requests of the client -/

/-- What arrives of a text in a member of some size. -/
def arrived (size : Nat) (text : String) : List UInt8 := cString ((utf8Bytes text).take (size - 1))

/-- What the daemon gets of a request. -/
def Request.received (T : Target) : Request → Received
  | .install req =>
      .install Header.SWUPDATE_API_VERSION req.source.enumerator.value req.mode.enumerator.value
        ((req.len.getD 0).toNat % 256 ^ T.sizeT.bytes) (arrived 512 req.info)
        (arrived 256 (req.softwareSet.getD "")) (arrived 256 (req.runningMode.getD ""))
        [if req.storeSwu then 0 else 1]
  | .getStatus => .getStatus
  | .getUpdateState => .getUpdateState
  | .setUpdateState state => .setUpdateState state.toWire
  | .postUpdate => .postUpdate
  | .setAesKey key iv => .setAesKey (arrived 65 key) (arrived 33 iv)
  | .setVersionsRange minimum maximum current updateType =>
      .setVersionsRange (arrived 256 minimum) (arrived 256 maximum) (arrived 256 current)
        (arrived 256 updateType)
  | .getHwRevision => .getHwRevision
  | .setSwupdateVar varNamespace name value =>
      .setSwupdateVars (arrived 256 varNamespace) (arrived 256 name) (arrived 256 value)
  | .getSwupdateVar varNamespace name =>
      .getSwupdateVars (arrived 256 varNamespace) (arrived 256 name)
  | .subprocessCmd source cmd timeout => .subprocess source.enumerator.value cmd.toWire timeout
  | .setDeltaUrl filename url => .setDeltaUrl (arrived 256 filename) (arrived 1024 url)

section Parsing

variable {T : Target} {r : Request} {path : List Ident}

/-- The daemon reads the `int` that a message carries. -/
theorem intAt_asHeader {v : Int32} (member : (path, i32ToNeBytes T v) ∈ r.headerFields T) :
    intAt T (r.asHeader T) path = v := by
  rw [intAt, (carries_asHeader T r).read_of_mem member, i32FromNeBytes_i32ToNeBytes]

/-- The daemon reads the beginning of the text that a message carries. -/
theorem cStringAt_asHeader {size : Nat} {text : String}
    (member : (path, textField size text) ∈ r.headerFields T) :
    cStringAt T (r.asHeader T) path = arrived size text := by
  rw [cStringAt, (carries_asHeader T r).read_of_mem member, cString_textField, arrived]

theorem magic_asHeader (r : Request) : intAt T (r.asHeader T) [.magic] = Header.IPC_MAGIC :=
  intAt_asHeader (by simp [Request.headerFields, Request.envelope])

theorem type_asHeader (r : Request) :
    intAt T (r.asHeader T) [.type] = r.msgType.enumerator.value :=
  intAt_asHeader (by simp [Request.headerFields, Request.envelope])

end Parsing

/-- **Every message of the client is parsed**, and the daemon gets its request. -/
theorem readRequest_asHeader (T : Target) (r : Request) :
    readRequest T (r.asHeader T) = some (r.received T) := by
  have carried := carries_asHeader T r
  rw [readRequest, if_neg (not_not_intro (magic_asHeader r)), type_asHeader,
    Header.Msgtype.ofValue?_value]
  cases r with
  | install req =>
      have version : ((Request.install req).asHeader T).read
          [.data, .instmsg, .req, .apiversion] = u32ToNeBytes T Header.SWUPDATE_API_VERSION :=
        carried.read_of_mem (by simp [Request.headerFields, Request.constants])
      have len : T.order.decode (((Request.install req).asHeader T).read
          [.data, .instmsg, .req, .len]) = _ := lengthAt_install T req
      have store : ((Request.install req).asHeader T).read
          [.data, .instmsg, .req, .disableStoreSwu] = [if req.storeSwu then 0 else 1] :=
        carried.read_of_mem (by
          simp [Request.headerFields, Request.arguments, Request.installArguments])
      simp only [Request.msgType, MsgType.enumerator, Request.received, List.cons_append,
        List.nil_append, version, len, store, u32FromNeBytes_u32ToNeBytes, Option.some.injEq,
        Received.install.injEq, true_and, and_true]
      refine ⟨intAt_asHeader ?_, intAt_asHeader ?_, cStringAt_asHeader ?_, cStringAt_asHeader ?_,
        cStringAt_asHeader ?_⟩
      all_goals simp [Request.headerFields, Request.arguments, Request.installArguments]
  | setUpdateState state =>
      have whole : ((Request.setUpdateState state).asHeader T).read [.data, .msg] =
          i32ToNeBytes T state.toWire ++ List.replicate 124 0 :=
        carried.read_of_mem (by simp [Request.headerFields, Request.arguments])
      have code : codeAt T ((Request.setUpdateState state).asHeader T) = state.toWire := by
        rw [codeAt, whole, ← length_i32ToNeBytes T state.toWire, List.take_left,
          i32FromNeBytes_i32ToNeBytes]
      simp only [Request.msgType, MsgType.enumerator, Request.received, code]
  | subprocessCmd source cmd timeout =>
      simp only [Request.msgType, MsgType.enumerator, Request.received, Option.some.injEq,
        Received.subprocess.injEq]
      refine ⟨intAt_asHeader ?_, intAt_asHeader ?_, intAt_asHeader ?_⟩
      all_goals simp [Request.headerFields, Request.arguments]
  | setAesKey key iv =>
      simp only [Request.msgType, MsgType.enumerator, Request.received, Option.some.injEq,
        Received.setAesKey.injEq]
      refine ⟨cStringAt_asHeader ?_, cStringAt_asHeader ?_⟩
      all_goals simp [Request.headerFields, Request.arguments]
  | setVersionsRange minimum maximum current updateType =>
      simp only [Request.msgType, MsgType.enumerator, Request.received, Option.some.injEq,
        Received.setVersionsRange.injEq]
      refine ⟨cStringAt_asHeader ?_, cStringAt_asHeader ?_, cStringAt_asHeader ?_,
        cStringAt_asHeader ?_⟩
      all_goals simp [Request.headerFields, Request.arguments]
  | setSwupdateVar varNamespace name value =>
      simp only [Request.msgType, MsgType.enumerator, Request.received, Option.some.injEq,
        Received.setSwupdateVars.injEq]
      refine ⟨cStringAt_asHeader ?_, cStringAt_asHeader ?_, cStringAt_asHeader ?_⟩
      all_goals simp [Request.headerFields, Request.arguments]
  | getSwupdateVar varNamespace name =>
      simp only [Request.msgType, MsgType.enumerator, Request.received, Option.some.injEq,
        Received.getSwupdateVars.injEq]
      refine ⟨cStringAt_asHeader ?_, cStringAt_asHeader ?_⟩
      all_goals simp [Request.headerFields, Request.arguments]
  | setDeltaUrl filename url =>
      simp only [Request.msgType, MsgType.enumerator, Request.received, Option.some.injEq,
        Received.setDeltaUrl.injEq]
      refine ⟨cStringAt_asHeader ?_, cStringAt_asHeader ?_⟩
      all_goals simp [Request.headerFields, Request.arguments]
  | getStatus => rfl
  | getUpdateState => rfl
  | postUpdate => rfl
  | getHwRevision => rfl

/-! ## Telling the request -/

/-- The state, the mode or the command with a code. -/
def ofCode {α : Type} (toWire : α → Int32) (all : List α) (code : Int32) : Option α :=
  all.find? fun a => toWire a == code

/-- The request that the daemon can tell from what it got. -/
def Received.request : Received → Option Request
  | .install _ source dryRun len info softwareSet runningMode disableStoreSwu => do
      let mode ← ofCode RunMode.toWire [.default, .dryRun, .install] dryRun
      pure (.install {
        source := Source.fromWire source
        mode := mode
        info := fromUtf8Lossy info
        softwareSet := some (fromUtf8Lossy softwareSet)
        runningMode := some (fromUtf8Lossy runningMode)
        len := some (UInt64.ofNat len)
        storeSwu := disableStoreSwu == [0] })
  | .getStatus => some .getStatus
  | .postUpdate => some .postUpdate
  | .subprocess source cmd timeout => do
      let cmd ← ofCode SubprocessCmd.toWire
        [.activation, .config, .enable, .getStatus, .setDownloadUrl] cmd
      pure (.subprocessCmd (Source.fromWire source) cmd timeout)
  | .setAesKey key ivt => some (.setAesKey (fromUtf8Lossy key) (fromUtf8Lossy ivt))
  | .setUpdateState state => (UpdateState.fromWire state).map .setUpdateState
  | .getUpdateState => some .getUpdateState
  | .setVersionsRange minimum maximum current updateType =>
      some (.setVersionsRange (fromUtf8Lossy minimum) (fromUtf8Lossy maximum)
        (fromUtf8Lossy current) (fromUtf8Lossy updateType))
  | .getHwRevision => some .getHwRevision
  | .setSwupdateVars varnamespace varname varvalue =>
      some (.setSwupdateVar (fromUtf8Lossy varnamespace) (fromUtf8Lossy varname)
        (fromUtf8Lossy varvalue))
  | .getSwupdateVars varnamespace varname =>
      some (.getSwupdateVar (fromUtf8Lossy varnamespace) (fromUtf8Lossy varname))
  | .setDeltaUrl filename url =>
      some (.setDeltaUrl (fromUtf8Lossy filename) (fromUtf8Lossy url))

namespace Request

/-- A request with the defaults of an install request written out. -/
def plain : Request → Request
  | .install req => .install { req with
      softwareSet := some (req.softwareSet.getD "")
      runningMode := some (req.runningMode.getD "")
      len := some (req.len.getD 0) }
  | r => r

/-- The length of the image of a request. -/
def imageLength : Request → Nat
  | .install req => (req.len.getD 0).toNat
  | _ => 0

/-- Every text of a request is representable, and so is its length. -/
structure Representable (T : Target) (r : Request) : Prop where
  texts : ∀ a ∈ r.texts, a.Representable
  length : r.imageLength < 256 ^ T.sizeT.bytes

theorem fromUtf8Lossy_arrived {a : TextArgument} (representable : a.Representable) :
    fromUtf8Lossy (arrived a.size a.text) = a.text := by
  have whole := (cString_textField_iff a).mpr representable
  rw [arrived, ← cString_textField, whole, fromUtf8Lossy_utf8Bytes]

/-- **A representable request is told from what the daemon got.** -/
theorem recovered {T : Target} {r : Request} (representable : r.Representable T) :
    (r.received T).request = some r.plain := by
  have text : ∀ size text, (size, text) ∈ r.texts.map (fun a => (a.size, a.text)) →
      fromUtf8Lossy (arrived size text) = text := by
    intro size text member
    obtain ⟨a, argument, same⟩ := List.mem_map.mp member
    cases same
    exact fromUtf8Lossy_arrived (representable.texts a argument)
  cases r with
  | install req =>
      have small : (req.len.getD 0).toNat < 256 ^ T.sizeT.bytes := representable.length
      have mode : ofCode RunMode.toWire [.default, .dryRun, .install] req.mode.toWire =
          some req.mode := by
        cases req.mode <;> rfl
      have store : (([if req.storeSwu then 0 else 1] : List UInt8) == [0]) = req.storeSwu := by
        cases req.storeSwu <;> rfl
      simp only [received, Received.request, ← RunMode.toWire_eq, mode, store,
        Nat.mod_eq_of_lt small, UInt64.ofNat_toNat, ← Source.toWire_eq, Source.fromWire_toWire]
      rw [text 512 req.info (by simp [texts]),
        text 256 (req.softwareSet.getD "") (by simp [texts]),
        text 256 (req.runningMode.getD "") (by simp [texts])]
      rfl
  | setUpdateState state =>
      have code : UpdateState.fromWire state.toWire = some state :=
        UpdateState.fromWire_eq_some.mpr rfl
      simp only [received, Received.request, code]
      rfl
  | subprocessCmd source cmd timeout =>
      have code : ofCode SubprocessCmd.toWire
          [.activation, .config, .enable, .getStatus, .setDownloadUrl] cmd.toWire = some cmd := by
        cases cmd <;> rfl
      simp only [received, Received.request, code, ← Source.toWire_eq, Source.fromWire_toWire]
      rfl
  | setAesKey key iv =>
      simp only [received, Received.request]
      rw [text 65 key (by simp [texts]), text 33 iv (by simp [texts])]
      rfl
  | setVersionsRange minimum maximum current updateType =>
      simp only [received, Received.request]
      rw [text 256 minimum (by simp [texts]), text 256 maximum (by simp [texts]),
        text 256 current (by simp [texts]), text 256 updateType (by simp [texts])]
      rfl
  | setSwupdateVar varNamespace name value =>
      simp only [received, Received.request]
      rw [text 256 varNamespace (by simp [texts]), text 256 name (by simp [texts]),
        text 256 value (by simp [texts])]
      rfl
  | getSwupdateVar varNamespace name =>
      simp only [received, Received.request]
      rw [text 256 varNamespace (by simp [texts]), text 256 name (by simp [texts])]
      rfl
  | setDeltaUrl filename url =>
      simp only [received, Received.request]
      rw [text 256 filename (by simp [texts]), text 1024 url (by simp [texts])]
      rfl
  | getStatus => rfl
  | getUpdateState => rfl
  | postUpdate => rfl
  | getHwRevision => rfl

/-- What arrives does not tell a default that is written out from one that is not. -/
theorem received_plain (T : Target) (r : Request) : r.plain.received T = r.received T := by
  cases r <;> rfl

end Request

/-- **How the daemon parses requests.** The first thing that a request does is to hand
over a message, and the daemon parses it and gets the arguments as they are cut. A
representable request is told from what was parsed, and two of them are parsed alike
exactly when they agree once their defaults are written out. -/
theorem requests_parsed (T : Target) :
    (∀ r : Request, HandsOver (r.perform T) (r.asHeader T).bytes ∧
      readRequest T (r.asHeader T) = some (r.received T)) ∧
    (∀ r : Request, r.Representable T →
      (readRequest T (r.asHeader T) >>= Received.request) = some r.plain) ∧
    ∀ r r' : Request, r.Representable T → r'.Representable T →
      (readRequest T (r.asHeader T) = readRequest T (r'.asHeader T) ↔ r.plain = r'.plain) := by
  refine ⟨fun r => ⟨handsOver_message T r, readRequest_asHeader T r⟩, fun r representable => ?_,
    fun r r' representable representable' => ⟨fun same => ?_, fun same => ?_⟩⟩
  · rw [readRequest_asHeader]
    exact Request.recovered representable
  · rw [readRequest_asHeader, readRequest_asHeader] at same
    have told := congrArg Received.request (Option.some.inj same)
    rw [Request.recovered representable, Request.recovered representable'] at told
    exact Option.some.inj told
  · rw [readRequest_asHeader, readRequest_asHeader, ← r.received_plain, ← r'.received_plain, same]

end SwupdateIpc
