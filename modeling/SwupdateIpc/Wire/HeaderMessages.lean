import SwupdateIpc.Foundations.RenamedMembers
import SwupdateIpc.Wire.Messages

/-!
# Messages under the daemon's declarations

The client and the daemon declare the messages of the control socket each on its
own. The two declarations agree up to the name of one member, and to the signs that C
leaves to the implementation (`rawIpcMessage_declared`), so every member of every variant
is read and assigned at the same bytes, and has the same sign, for either width of
`size_t` (`message_agrees_with_header`). The packed messages of the progress socket and
its acknowledgements are declared alike too (`rawProgressMsg_declared`,
`rawProgressAck_declared`).
-/

set_option autoImplicit false

namespace SwupdateIpc

open Foundations Wire

/-- What the header calls a member of the client's message. The two names are
exchanged, so that no two members get one name. -/
def headerName : Ident → Ident
  | .msgType => .type
  | .type => .msgType
  | name => name

theorem headerName_headerName (name : Ident) : headerName (headerName name) = name := by
  cases name <;> rfl

theorem headerName_injective : Function.Injective headerName :=
  Function.LeftInverse.injective headerName_headerName

/-- **The two declarations agree** up to the name of one member, and to the signs that the
header leaves open. -/
theorem rawIpcMessage_declared (width : Width) :
    (rawIpcMessage width).declaredAs headerName (Header.ipcMessage width) = true := by
  cases width <;> decide +kernel

theorem ipcMessage_wellAligned (width : Width) : (Header.ipcMessage width).wellAligned = true := by
  cases width <;> rfl

theorem span?_headerName (width : Width) (path : List Ident) :
    (Header.ipcMessage width).span? (path.map headerName) = (rawIpcMessage width).span? path :=
  Layout.span?_declared headerName_injective (rawIpcMessage_declared width) path

/-- The header has the size of the client's message. -/
theorem size_ipcMessage (width : Width) :
    (Header.ipcMessage width).size = (rawIpcMessage width).size :=
  Layout.size_declared (rawIpcMessage_declared width)

example : (Header.ipcMessage .four).span? [.data, .instmsg, .req, .len] = some (20, 4) ∧
    (Header.ipcMessage .eight).span? [.data, .instmsg, .req, .len] = some (24, 8) := by
  decide

namespace Wire.RawIpcMessage

variable {T : Target}

/-- A message as a record of the header. -/
def underHeader (m : RawIpcMessage T) : Record (Header.ipcMessage T.sizeT) :=
  m.redeclared (rawIpcMessage_declared T.sizeT)

theorem read_underHeader (m : RawIpcMessage T) (path : List Ident) :
    m.underHeader.read (path.map headerName) = m.read path :=
  Record.read_declared _ headerName_injective m path

/-- What an assignment leaves in the bytes. -/
theorem bytes_store (m : RawIpcMessage T) {path : List Ident} {offset size : Nat}
    (there : (rawIpcMessage T.sizeT).span? path = some (offset, size)) {value : List UInt8}
    (full : value.length = size) : (m.store path value).bytes = splice offset value m.bytes := by
  obtain ⟨inner, found, same⟩ := Layout.span?_eq_some.mp there
  exact Record.bytes_write m (rawIpcMessage_wellAligned _) found (full.trans same.symm)

/-- The daemon assigns a member as the client does. -/
theorem write_underHeader (m : RawIpcMessage T) {path : List Ident} {offset size : Nat}
    (there : (rawIpcMessage T.sizeT).span? path = some (offset, size)) {value : List UInt8}
    (full : value.length = size) :
    (m.underHeader.write (ipcMessage_wellAligned _) (path.map headerName) value).bytes =
      (m.store path value).bytes := by
  obtain ⟨inner, found, same⟩ := Layout.span?_eq_some.mp there
  exact Record.write_declared _ headerName_injective m (rawIpcMessage_wellAligned _)
    (ipcMessage_wellAligned _) path (Layout.typeAt?_eq_some.mpr ⟨offset, found⟩)
    (full.trans same.symm)

end Wire.RawIpcMessage

/-- The packed progress messages are declared alike, for either alignment of an
`unsigned long long`. -/
theorem rawProgressMsg_declared (align : Width) :
    (rawProgressMsg align).declaredAs id (Header.progressMsgPacked align) = true := by
  cases align <;> decide +kernel

/-- So are the acknowledgements of a connection. -/
theorem rawProgressAck_declared :
    rawProgressAck.declaredAs id Header.progressConnectAck = true := by
  decide +kernel

theorem ipcMessageFromBytes_isSome (T : Target) (b : List UInt8) :
    (ipcMessageFromBytes T b).isSome = true ↔ b.length = (Header.ipcMessage T.sizeT).size := by
  rw [size_ipcMessage, ipcMessageFromBytes]
  split
  next full => exact iff_of_true rfl full
  next short => exact iff_of_false nofun short

theorem bytes_of_ipcMessageFromBytes {T : Target} {b : List UInt8} {m : RawIpcMessage T}
    (parsed : ipcMessageFromBytes T b = some m) : m.bytes = b := by
  unfold ipcMessageFromBytes at parsed
  split at parsed
  next => cases parsed; rfl
  next => cases parsed

/-- **A byte string is the same message under both declarations.** It is a message
when it has the size that the header gives, and its bytes are kept. Every member of
the message reads the bytes that its member of the header reads, and an assignment to
it changes the bytes that an assignment to the member of the header changes: those of
that member. An integer of the message has the sign that the header gives it, if it does. -/
theorem message_agrees_with_header (T : Target) (b : List UInt8) :
    ((ipcMessageFromBytes T b).isSome = true ↔
      b.length = (Header.ipcMessage T.sizeT).size) ∧
    ∀ m, ipcMessageFromBytes T b = some m →
      ipcMessageToBytes m = b ∧
      ∃ c : Record (Header.ipcMessage T.sizeT), c.bytes = b ∧ ∀ path : List Ident,
        (Header.ipcMessage T.sizeT).span? (path.map headerName) =
          (rawIpcMessage T.sizeT).span? path ∧
        (∀ sign, (Header.ipcMessage T.sizeT).signAt? (path.map headerName) = some sign →
          (rawIpcMessage T.sizeT).signAt? path = some sign) ∧
        m.read path = c.read (path.map headerName) ∧
        ∀ offset size, (Header.ipcMessage T.sizeT).span? (path.map headerName) =
            some (offset, size) →
          ∀ value, value.length = size →
            (m.store path value).bytes =
              (c.write (ipcMessage_wellAligned _) (path.map headerName) value).bytes ∧
            (m.store path value).bytes = splice offset value b := by
  refine ⟨ipcMessageFromBytes_isSome T b, ?_⟩
  intro m parsed
  obtain rfl := bytes_of_ipcMessageFromBytes parsed
  refine ⟨rfl, m.underHeader, rfl, fun path => ⟨span?_headerName _ path, ?_, ?_, ?_⟩⟩
  · exact fun sign fixed =>
      Layout.signAt?_declared headerName_injective (rawIpcMessage_declared _) fixed
  · exact (m.read_underHeader path).symm
  · intro offset size there value full
    rw [span?_headerName] at there
    exact ⟨(m.write_underHeader there full).symm, m.bytes_store there full⟩

end SwupdateIpc
