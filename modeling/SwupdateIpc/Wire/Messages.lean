import SwupdateIpc.Foundations.LossyUtf8
import SwupdateIpc.Wire.Layouts

/-!
# The messages of the control socket

`RawIpcMessage` is a value of the message layout of the client: as many bytes as
`size_of` says. Its members are read and written through their places. Integers
are stored in the byte order of the target; texts are stored by `writeCstr`,
which cuts them, and read by `cstrFromBytes`, which stops at the first NUL.
-/

set_option autoImplicit false

namespace SwupdateIpc

open Foundations

namespace Wire

/-! ## Constants and codes -/

def IPC_MAGIC : Int32 := 0x14052001
def SWUPDATE_API_VERSION : UInt32 := 0x1

def PROGRESS_API_MAJOR : UInt32 := 2
def PROGRESS_API_MINOR : UInt32 := 0
def PROGRESS_API_PATCH : UInt32 := 0
def PROGRESS_API_VERSION : UInt32 :=
  (PROGRESS_API_MAJOR &&& 0xFFFF) <<< 16 ||| (PROGRESS_API_MINOR &&& 0xFF) <<< 8 |||
    (PROGRESS_API_PATCH &&& 0xFF)

/-- The bytes of `"ACK\0"`. -/
def PROGRESS_CONNECT_ACK_MAGIC : List UInt8 := [0x41, 0x43, 0x4B, 0x00]

inductive MsgType where
  | reqInstall
  | ack
  | nack
  | getStatus
  | postUpdate
  | swupdateSubprocess
  | setAesKey
  | setUpdateState
  | getUpdateState
  | reqInstallExt
  | setVersionsRange
  | notifyStream
  | getHwRevision
  | setSwupdateVars
  | getSwupdateVars
  | setDeltaUrl
  deriving DecidableEq, Repr

/-- The discriminant, `msg_type as i32`. -/
def MsgType.toI32 : MsgType → Int32
  | .reqInstall => 0
  | .ack => 1
  | .nack => 2
  | .getStatus => 3
  | .postUpdate => 4
  | .swupdateSubprocess => 5
  | .setAesKey => 6
  | .setUpdateState => 7
  | .getUpdateState => 8
  | .reqInstallExt => 9
  | .setVersionsRange => 10
  | .notifyStream => 11
  | .getHwRevision => 12
  | .setSwupdateVars => 13
  | .getSwupdateVars => 14
  | .setDeltaUrl => 15

def MsgType.fromI32 (v : Int32) : Option MsgType :=
  match v with
  | 0 => some .reqInstall
  | 1 => some .ack
  | 2 => some .nack
  | 3 => some .getStatus
  | 4 => some .postUpdate
  | 5 => some .swupdateSubprocess
  | 6 => some .setAesKey
  | 7 => some .setUpdateState
  | 8 => some .getUpdateState
  | 9 => some .reqInstallExt
  | 10 => some .setVersionsRange
  | 11 => some .notifyStream
  | 12 => some .getHwRevision
  | 13 => some .setSwupdateVars
  | 14 => some .getSwupdateVars
  | 15 => some .setDeltaUrl
  | _ => none

/-- What `{:?}` prints. -/
def MsgType.debug : MsgType → String
  | .reqInstall => "ReqInstall"
  | .ack => "Ack"
  | .nack => "Nack"
  | .getStatus => "GetStatus"
  | .postUpdate => "PostUpdate"
  | .swupdateSubprocess => "SwupdateSubprocess"
  | .setAesKey => "SetAesKey"
  | .setUpdateState => "SetUpdateState"
  | .getUpdateState => "GetUpdateState"
  | .reqInstallExt => "ReqInstallExt"
  | .setVersionsRange => "SetVersionsRange"
  | .notifyStream => "NotifyStream"
  | .getHwRevision => "GetHwRevision"
  | .setSwupdateVars => "SetSwupdateVars"
  | .getSwupdateVars => "GetSwupdateVars"
  | .setDeltaUrl => "SetDeltaUrl"

theorem MsgType.fromI32_toI32 (t : MsgType) : MsgType.fromI32 t.toI32 = some t := by
  cases t <;> rfl

/-- The codes are those of the declared types, and no others. -/
theorem MsgType.fromI32_eq_some {v : Int32} {t : MsgType} :
    MsgType.fromI32 v = some t ↔ v = t.toI32 := by
  constructor
  · intro parsed
    unfold MsgType.fromI32 at parsed
    split at parsed <;> cases parsed <;> rfl
  · rintro rfl
    exact MsgType.fromI32_toI32 t

/-! ## Integers in memory -/

def i32ToNeBytes (T : Target) (v : Int32) : List UInt8 := T.order.encode 4 v.toUInt32.toNat

def i32FromNeBytes (T : Target) (bs : List UInt8) : Int32 :=
  (UInt32.ofNat (T.order.decode bs)).toInt32

def u32ToNeBytes (T : Target) (v : UInt32) : List UInt8 := T.order.encode 4 v.toNat

def u32FromNeBytes (T : Target) (bs : List UInt8) : UInt32 := UInt32.ofNat (T.order.decode bs)

/-- The value of a `usize`, as many bytes as the target has. -/
def usizeToNeBytes (T : Target) (n : Nat) : List UInt8 := T.order.encode T.sizeT.bytes n

@[simp] theorem length_i32ToNeBytes (T : Target) (v : Int32) : (i32ToNeBytes T v).length = 4 :=
  T.order.length_encode 4 _

@[simp] theorem length_u32ToNeBytes (T : Target) (v : UInt32) : (u32ToNeBytes T v).length = 4 :=
  T.order.length_encode 4 _

@[simp] theorem length_usizeToNeBytes (T : Target) (n : Nat) :
    (usizeToNeBytes T n).length = T.sizeT.bytes :=
  T.order.length_encode _ _

theorem u32FromNeBytes_u32ToNeBytes (T : Target) (v : UInt32) :
    u32FromNeBytes T (u32ToNeBytes T v) = v := by
  have small : v.toNat < 256 ^ 4 := v.toNat_lt
  rw [u32FromNeBytes, u32ToNeBytes, ByteOrder.decode_encode, Nat.mod_eq_of_lt small,
    UInt32.ofNat_toNat]

theorem i32FromNeBytes_i32ToNeBytes (T : Target) (v : Int32) :
    i32FromNeBytes T (i32ToNeBytes T v) = v := by
  show (u32FromNeBytes T (u32ToNeBytes T v.toUInt32)).toInt32 = v
  rw [u32FromNeBytes_u32ToNeBytes]
  rfl

theorem i32FromNeBytes_zeros (T : Target) : i32FromNeBytes T (List.replicate 4 0) = 0 := by
  have := i32FromNeBytes_i32ToNeBytes T 0
  rwa [i32ToNeBytes, show (0 : Int32).toUInt32.toNat = 0 from rfl, ByteOrder.encode_zero] at this

/-! ## Texts in fields -/

/-- Extract a text from a NUL-padded byte array. -/
def cstrFromBytes (bytes : List UInt8) : String :=
  let stop := (bytes.findIdx? (· == 0)).getD bytes.length
  fromUtf8Lossy (bytes.take stop)

/-- Write a text into a byte array, cut to leave one byte. -/
def writeCstr (dst : List UInt8) (src : String) : List UInt8 :=
  let bytes := utf8Bytes src
  let copyLen := min bytes.length (dst.length - 1)
  bytes.take copyLen ++ dst.drop copyLen

/-- The text read is what stands before the first NUL, or in the whole array. -/
theorem cstrFromBytes_eq (bytes : List UInt8) :
    cstrFromBytes bytes = fromUtf8Lossy (bytes.takeWhile (· != 0)) := by
  have cut : bytes.take ((bytes.findIdx? (· == 0)).getD bytes.length) =
      bytes.takeWhile (· != 0) := by
    induction bytes with
    | nil => rfl
    | cons b bs ih =>
        by_cases zero : b = 0
        · subst zero
          rfl
        · have stop : (b == 0) = false := beq_eq_false_iff_ne.mpr zero
          have go : (b != 0) = true := bne_iff_ne.mpr zero
          rw [List.takeWhile_cons_of_pos (by simpa using go), ← ih, List.findIdx?_cons, stop]
          cases bs.findIdx? (· == 0) <;> rfl
  rw [cstrFromBytes, cut]

@[simp] theorem length_writeCstr (dst : List UInt8) (src : String) :
    (writeCstr dst src).length = dst.length := by
  simp only [writeCstr, List.length_append, List.length_take, List.length_drop]
  omega

/-! ## Messages -/

/-- A message: its bytes, as many as `size_of::<RawIpcMessage>()`. -/
abbrev RawIpcMessage (T : Target) := Record (rawIpcMessage T.sizeT)

theorem rawIpcMessage_wellAligned (width : Width) : (rawIpcMessage width).wellAligned = true := by
  cases width <;> rfl

theorem rawSwupdateRequest_wellAligned (width : Width) :
    (rawSwupdateRequest width).wellAligned = true := by
  cases width <;> rfl

/-- The request of an installation, as it is embedded in a message. -/
abbrev RawSwupdateRequest (T : Target) := Record (rawSwupdateRequest T.sizeT)

/-- `mem::size_of::<RawIpcMessage>()`. -/
def sizeOfMessage (T : Target) : Nat := (rawIpcMessage T.sizeT).size

theorem sizeOfMessage_eq (T : Target) : sizeOfMessage T = 3088 + 4 * T.sizeT.bytes := by
  unfold sizeOfMessage
  cases T.sizeT <;> rfl

theorem sizeOfMessage_pos (T : Target) : 0 < sizeOfMessage T := by
  rw [sizeOfMessage_eq]
  omega

namespace RawSwupdateRequest

variable {T : Target}

def zeroed (T : Target) : RawSwupdateRequest T := Record.zeroed _

/-- Assign a member. -/
def store (r : RawSwupdateRequest T) (path : List Ident) (value : List UInt8) :
    RawSwupdateRequest T :=
  r.write (rawSwupdateRequest_wellAligned _) path value

/-- Write a text into a member. -/
def storeCstr (r : RawSwupdateRequest T) (path : List Ident) (src : String) :
    RawSwupdateRequest T :=
  r.store path (writeCstr (r.read path) src)

end RawSwupdateRequest

namespace RawIpcMessage

variable {T : Target}

/-- Assign a member. -/
def store (m : RawIpcMessage T) (path : List Ident) (value : List UInt8) : RawIpcMessage T :=
  m.write (rawIpcMessage_wellAligned _) path value

/-- Write a text into a member. -/
def storeCstr (m : RawIpcMessage T) (path : List Ident) (src : String) : RawIpcMessage T :=
  m.store path (writeCstr (m.read path) src)

def i32At (m : RawIpcMessage T) (path : List Ident) : Int32 := i32FromNeBytes T (m.read path)

/-- A message of zeros. -/
def zeroed (T : Target) : RawIpcMessage T := Record.zeroed _

/-- A message with the magic and a type, and zeros. -/
def new (T : Target) (msgType : MsgType) : RawIpcMessage T :=
  ((zeroed T).store [.magic] (i32ToNeBytes T IPC_MAGIC)).store [.msgType]
    (i32ToNeBytes T msgType.toI32)

/-- Validate the magic number. -/
def isValid (m : RawIpcMessage T) : Bool := m.i32At [.magic] == IPC_MAGIC

/-- Parse the message type. -/
def msgType (m : RawIpcMessage T) : Option MsgType := MsgType.fromI32 (m.i32At [.msgType])

end RawIpcMessage

namespace RawIpcMessage

variable {T : Target}

theorem place?_magic (width : Width) :
    (rawIpcMessage width).place? [.magic] = some (0, i32) := by
  cases width <;> rfl

theorem place?_msgType (width : Width) :
    (rawIpcMessage width).place? [.msgType] = some (4, i32) := by
  cases width <;> rfl

theorem msgType_new (msgType : MsgType) : (new T msgType).msgType = some msgType := by
  have full : ∀ v, (i32ToNeBytes T v).length = i32.size := length_i32ToNeBytes T
  rw [RawIpcMessage.msgType, i32At, new, store,
    Record.read_write_same _ _ (place?_msgType _) (full _), i32FromNeBytes_i32ToNeBytes,
    MsgType.fromI32_toI32]

/-- The magic and the type are all that a new message carries. -/
theorem read_new {msgType : MsgType} {path : List Ident} {offset : Nat}
    {inner : Layout Ident} (found : (rawIpcMessage T.sizeT).place? path = some (offset, inner))
    (payload : 8 ≤ offset) : (new T msgType).read path = List.replicate inner.size 0 := by
  have positive := rawIpcMessage_wellAligned T.sizeT
  have inside := Layout.place?_inside positive found
  have full : ∀ v, (i32ToNeBytes T v).length = i32.size := length_i32ToNeBytes T
  have four : i32.size = 4 := rfl
  have apart : 0 + i32.size ≤ offset ∧ 4 + i32.size ≤ offset := by
    rw [four]
    omega
  rw [new, store, store,
    Record.read_write_apart _ positive (place?_msgType _) found (.inr apart.2) (full _),
    Record.read_write_apart _ positive (place?_magic _) found (.inr apart.1) (full _),
    Record.read_eq _ found, zeroed, Record.bytes_zeroed]
  exact slice_replicate 0 inside

end RawIpcMessage

/-- Read a message from a byte buffer of the right size. -/
def ipcMessageFromBytes (T : Target) (buf : List UInt8) : Option (RawIpcMessage T) :=
  if full : buf.length = sizeOfMessage T then some ⟨buf, full⟩ else none

/-- The bytes of a message. -/
def ipcMessageToBytes {T : Target} (m : RawIpcMessage T) : List UInt8 := m.bytes

theorem RawIpcMessage.length_bytes {T : Target} (m : RawIpcMessage T) :
    m.bytes.length = sizeOfMessage T := m.length_eq

/-- A byte string that is long enough begins with a message. -/
theorem RawIpcMessage.exists_prefix {T : Target} {xs : List UInt8}
    (enough : sizeOfMessage T ≤ xs.length) : ∃ m : RawIpcMessage T, m.bytes <+: xs := by
  have full : (xs.take (sizeOfMessage T)).length = sizeOfMessage T :=
    List.length_take_of_le enough
  have inside : xs.take (sizeOfMessage T) <+: xs := List.take_prefix _ xs
  generalize xs.take (sizeOfMessage T) = taken at full inside
  exact ⟨⟨taken, full⟩, inside⟩

theorem ipcMessageFromBytes_of_length {T : Target} {buf : List UInt8}
    (full : buf.length = sizeOfMessage T) : ipcMessageFromBytes T buf = some ⟨buf, full⟩ :=
  dif_pos full

end Wire

end SwupdateIpc
