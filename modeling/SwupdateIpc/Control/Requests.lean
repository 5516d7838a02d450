import SwupdateIpc.Control.Exchange
import SwupdateIpc.Wire.HeaderCodes
import SwupdateIpc.Wire.HeaderMessages
import SwupdateIpc.Wire.Texts

/-!
# The requests as the daemon reads them

The daemon reads a message through its own declarations. This module lists, for
each request, the members of the header that hold its arguments
(`Request.arguments`), and the one constant member, the version of an install
request (`Request.constants`), with the constants and the enumerators of the
header. The message handed to the socket carries these, the magic and the type
of the request, and zeros elsewhere (`request_as_header_reads`). Only the padding
of the embedded install request is not determined.

The texts are cut to leave a byte, so each ends with a NUL (`textField`).
-/

set_option autoImplicit false

namespace Foundations.Record

open SwupdateIpc SwupdateIpc.Wire

section Texts

variable {layout : Layout Ident} {r : Record layout} {fields : List (List Ident × List UInt8)}
  (positive : layout.wellAligned = true)

/-- Writing a text into a member that the other fields leave alone. -/
theorem Carries.cstr (carried : Carries r fields nowhere) (path : List Ident) {size : Nat}
    (there : layout.typeAt? path = some (u8s size))
    (apart : fields.all (fun f => layout.apart f.1 path) = true) (text : String) :
    Carries (r.write positive path (writeCstr (r.read path) text))
      (fields ++ [(path, textField size text)]) nowhere := by
  have whole : (u8s size).size = size := Nat.mul_one size
  rw [carried.untouched positive path there apart, whole, writeCstr_zeros]
  refine carried.write positive path there apart ?_
  rw [length_textField, whole]

/-- Writing a text if there is one. -/
theorem Carries.cstr? (carried : Carries r fields nowhere) (path : List Ident) {size : Nat}
    (there : layout.typeAt? path = some (u8s size))
    (apart : fields.all (fun f => layout.apart f.1 path) = true) (text : Option String) :
    Carries (match text with
        | some text => r.write positive path (writeCstr (r.read path) text)
        | none => r)
      (fields ++ [(path, textField size (text.getD ""))]) nowhere := by
  cases text with
  | some text => exact carried.cstr positive path there apart text
  | none =>
      refine carried.add_zeros positive path there apart ?_
      rw [Option.getD_none, textField_empty]
      exact congrArg (List.replicate · 0) (Nat.mul_one size).symm

end Texts

end Foundations.Record

namespace SwupdateIpc

open Foundations Wire

/-! ## What each request carries -/

namespace Request

/-- The type of the message of a request. -/
def msgType : Request → MsgType
  | .install _ => .reqInstall
  | .getStatus => .getStatus
  | .getUpdateState => .getUpdateState
  | .setUpdateState _ => .setUpdateState
  | .postUpdate => .postUpdate
  | .setAesKey _ _ => .setAesKey
  | .setVersionsRange _ _ _ _ => .setVersionsRange
  | .getHwRevision => .getHwRevision
  | .setSwupdateVar _ _ _ => .setSwupdateVars
  | .getSwupdateVar _ _ => .getSwupdateVars
  | .subprocessCmd _ _ _ => .swupdateSubprocess
  | .setDeltaUrl _ _ => .setDeltaUrl

variable (T : Target)

/-- The members of `struct swupdate_request` that hold the arguments of an
install request. -/
def installArguments (req : InstallRequest) : List (List Ident × List UInt8) := [
  ([.source], i32ToNeBytes T req.source.enumerator.value),
  ([.dryRun], i32ToNeBytes T req.mode.enumerator.value),
  ([.len], usizeToNeBytes T (req.len.getD 0).toNat),
  ([.info], textField 512 req.info),
  ([.softwareSet], textField 256 (req.softwareSet.getD "")),
  ([.runningMode], textField 256 (req.runningMode.getD "")),
  ([.disableStoreSwu], [if req.storeSwu then 0 else 1])]

/-- The members that hold the arguments of a request. -/
def arguments : Request → List (List Ident × List UInt8)
  | .install req =>
      (installArguments T req).map fun f => ([.data, .instmsg, .req] ++ f.1, f.2)
  | .setUpdateState state =>
      [([.data, .msg], i32ToNeBytes T state.toWire ++ List.replicate 124 0)]
  | .setAesKey key iv => [
      ([.data, .aeskeymsg, .keyAscii], textField 65 key),
      ([.data, .aeskeymsg, .ivtAscii], textField 33 iv)]
  | .setVersionsRange minimum maximum current updateType => [
      ([.data, .versions, .minimumVersion], textField 256 minimum),
      ([.data, .versions, .maximumVersion], textField 256 maximum),
      ([.data, .versions, .currentVersion], textField 256 current),
      ([.data, .versions, .updateType], textField 256 updateType)]
  | .setSwupdateVar varNamespace name value => [
      ([.data, .vars, .varnamespace], textField 256 varNamespace),
      ([.data, .vars, .varname], textField 256 name),
      ([.data, .vars, .varvalue], textField 256 value)]
  | .getSwupdateVar varNamespace name => [
      ([.data, .vars, .varnamespace], textField 256 varNamespace),
      ([.data, .vars, .varname], textField 256 name)]
  | .subprocessCmd source cmd timeout => [
      ([.data, .procmsg, .source], i32ToNeBytes T source.enumerator.value),
      ([.data, .procmsg, .cmd], i32ToNeBytes T cmd.toWire),
      ([.data, .procmsg, .timeout], i32ToNeBytes T timeout)]
  | .setDeltaUrl filename url => [
      ([.data, .dwlUrl, .filename], textField 256 filename),
      ([.data, .dwlUrl, .url], textField 1024 url)]
  | .getStatus | .getUpdateState | .postUpdate | .getHwRevision => []

/-- The members that hold a constant: the version of the interface. -/
def constants : Request → List (List Ident × List UInt8)
  | .install _ =>
      [([.data, .instmsg, .req, .apiversion], u32ToNeBytes T Header.SWUPDATE_API_VERSION)]
  | _ => []

/-- The padding of the install request that a message embeds. -/
def padding (width : Width) : Request → Nat → Bool
  | .install _ =>
      match (Header.ipcMessage width).place? [.data, .instmsg, .req] with
      | some (offset, inner) => Record.paddingFrom offset inner
      | none => Record.nowhere
  | _ => Record.nowhere

/-- The magic and the type, under a name of the type. -/
def envelope (name : Ident) (r : Request) : List (List Ident × List UInt8) := [
  ([.magic], i32ToNeBytes T Header.IPC_MAGIC),
  ([name], i32ToNeBytes T r.msgType.enumerator.value)]

end Request

theorem carries_new (T : Target) (t : MsgType) :
    (RawIpcMessage.new T t).Carries
      [([.magic], i32ToNeBytes T Header.IPC_MAGIC),
        ([.msgType], i32ToNeBytes T t.enumerator.value)] Record.nowhere := by
  have int := length_i32ToNeBytes T
  rw [← t.toI32_eq]
  obtain ⟨order, width, align, padding⟩ := T
  have zeroed := Record.carries_zeroed (rawIpcMessage width)
  have positive := rawIpcMessage_wellAligned width
  cases width <;>
    exact (zeroed.write positive [.magic] rfl rfl (int _)).write positive [.msgType] rfl rfl (int _)

theorem usizeToNeBytes_asUsize (T : Target) (n : UInt64) :
    usizeToNeBytes T (asUsize T n) = usizeToNeBytes T n.toNat :=
  T.order.encode_mod T.sizeT.bytes n.toNat

/-- The install request as it is embedded in a message. -/
theorem carries_toRaw (T : Target) (req : InstallRequest) :
    (req.toRaw T).Carries
      (([.apiversion], u32ToNeBytes T Header.SWUPDATE_API_VERSION) ::
        Request.installArguments T req) Record.nowhere := by
  have version := length_u32ToNeBytes T SWUPDATE_API_VERSION
  have int := length_i32ToNeBytes T
  have len := length_usizeToNeBytes T (req.len.getD 0).toNat
  have whole := usizeToNeBytes_asUsize T (req.len.getD 0)
  rw [InstallRequest.toRaw, whole, Request.installArguments, ← req.source.toWire_eq,
    ← req.mode.toWire_eq]
  obtain ⟨order, width, align, padding⟩ := T
  have positive := rawSwupdateRequest_wellAligned width
  have zeroed := Record.carries_zeroed (rawSwupdateRequest width)
  cases width <;>
    exact (zeroed.write positive [.apiversion] rfl rfl version
      |>.write positive [.source] rfl rfl (int _)
      |>.write positive [.dryRun] rfl rfl (int _)
      |>.write positive [.len] rfl rfl len
      |>.cstr positive [.info] rfl rfl req.info
      |>.cstr? positive [.softwareSet] rfl rfl req.softwareSet
      |>.cstr? positive [.runningMode] rfl rfl req.runningMode
      |>.write positive [.disableStoreSwu] rfl rfl rfl)

/-- The message of a request, under the client's own declarations. -/
theorem carries_message (T : Target) (r : Request) :
    (r.message T).Carries
      (r.envelope T .msgType ++ (r.constants T ++ r.arguments T)) (r.padding T.sizeT) := by
  have new := carries_new T r.msgType
  have raw := carries_toRaw T
  have int := length_i32ToNeBytes T
  have none : u32ToNeBytes T 0 = List.replicate 4 0 := T.order.encode_zero 4
  obtain ⟨order, width, align, padding⟩ := T
  have positive := rawIpcMessage_wellAligned width
  have inner := rawSwupdateRequest_wellAligned width
  cases r with
  | install req =>
      cases width <;>
        exact (new.embed positive [.data, .instmsg, .req] rfl rfl inner (raw req) rfl padding
          |>.write_zeros positive [.data, .instmsg, .len] rfl rfl none)
  | setUpdateState state =>
      -- The code is written over the first bytes of the member.
      have written : ∀ bs, bs = List.replicate 128 0 →
          splice 0 (i32ToNeBytes ⟨order, width, align, padding⟩ state.toWire) bs =
            i32ToNeBytes ⟨order, width, align, padding⟩ state.toWire ++ List.replicate 124 0 := by
        rintro bs rfl
        rw [splice, int]
        rfl
      have full : (i32ToNeBytes ⟨order, width, align, padding⟩ state.toWire ++
          List.replicate 124 0).length = (u8s 128).size := by
        rw [List.length_append, int, List.length_replicate]
        rfl
      rw [Request.message, written]
      · cases width <;> exact new.write positive [.data, .msg] rfl rfl full
      · cases width <;> exact new.untouched positive [.data, .msg] rfl rfl
  | setAesKey key iv =>
      cases width <;>
        exact (new.cstr positive [.data, .aeskeymsg, .keyAscii] rfl rfl key
          |>.cstr positive [.data, .aeskeymsg, .ivtAscii] rfl rfl iv)
  | setVersionsRange minimum maximum current updateType =>
      cases width <;>
        exact (new.cstr positive [.data, .versions, .minimumVersion] rfl rfl minimum
          |>.cstr positive [.data, .versions, .maximumVersion] rfl rfl maximum
          |>.cstr positive [.data, .versions, .currentVersion] rfl rfl current
          |>.cstr positive [.data, .versions, .updateType] rfl rfl updateType)
  | setSwupdateVar varNamespace name value =>
      cases width <;>
        exact (new.cstr positive [.data, .vars, .varnamespace] rfl rfl varNamespace
          |>.cstr positive [.data, .vars, .varname] rfl rfl name
          |>.cstr positive [.data, .vars, .varvalue] rfl rfl value)
  | getSwupdateVar varNamespace name =>
      cases width <;>
        exact (new.cstr positive [.data, .vars, .varnamespace] rfl rfl varNamespace
          |>.cstr positive [.data, .vars, .varname] rfl rfl name)
  | subprocessCmd source cmd timeout =>
      rw [Request.arguments, ← source.toWire_eq]
      cases width <;>
        exact (new.write positive [.data, .procmsg, .source] rfl rfl (int _)
          |>.write positive [.data, .procmsg, .cmd] rfl rfl (int _)
          |>.write positive [.data, .procmsg, .timeout] rfl rfl (int _)
          |>.write_zeros positive [.data, .procmsg, .len] rfl rfl none)
  | setDeltaUrl filename url =>
      cases width <;>
        exact (new.cstr positive [.data, .dwlUrl, .filename] rfl rfl filename
          |>.cstr positive [.data, .dwlUrl, .url] rfl rfl url)
  | getStatus => exact new
  | getUpdateState => exact new
  | postUpdate => exact new
  | getHwRevision => exact new

/-! ## The message under the daemon's declarations -/

/-- What the daemon finds in a message: the magic, the type, the constants and the
arguments of the request. -/
def Request.headerFields (T : Target) (r : Request) : List (List Ident × List UInt8) :=
  r.envelope T .type ++ (r.constants T ++ r.arguments T)

/-- The first thing a program does is to hand a byte string to the socket. -/
def HandsOver (p : ControlM Value) (bytes : List UInt8) : Prop :=
  ∃ rest : ControlClient → Except IoError Unit → ControlM Value,
    p = do
      let self ← get
      let result ← await (.writeAll self.stream bytes)
      rest self result

theorem handsOver_message (T : Target) (r : Request) :
    HandsOver (r.perform T) (r.message T).bytes := by
  rw [Request.perform_eq]
  exact ⟨_, rfl⟩

/-- The message of a request, as a record of the header. -/
def Request.asHeader (T : Target) (r : Request) : Record (Header.ipcMessage T.sizeT) :=
  (r.message T).underHeader

theorem carries_asHeader (T : Target) (r : Request) :
    (r.asHeader T).Carries (r.headerFields T) (r.padding T.sizeT) := by
  have carried := (carries_message T r).relabel (List.map headerName) (r.asHeader T) rfl
    fun f _ => span?_headerName T.sizeT f.1
  have renamed : (r.envelope T .msgType ++ (r.constants T ++ r.arguments T)).map
      (fun f => (f.1.map headerName, f.2)) = r.headerFields T := by
    cases r <;> rfl
  rwa [renamed] at carried

/-- **The requests as the daemon reads them.** The message handed to the socket
carries the magic, the type, the constants and the arguments of the request, each
in its member, and zeros elsewhere, up to the padding of an install request. A
member that holds a text ends with a NUL. -/
theorem request_as_header_reads (T : Target) (r : Request) :
    ∃ sent : Record (Header.ipcMessage T.sizeT), HandsOver (r.perform T) sent.bytes ∧
      sent.Carries (r.headerFields T) (r.padding T.sizeT) ∧
      ∀ path size text, (path, textField (size + 1) text) ∈ r.headerFields T →
        (sent.read path).getLast? = some 0 := by
  have carried := carries_asHeader T r
  refine ⟨r.asHeader T, handsOver_message T r, carried, ?_⟩
  intro path size text member
  rw [carried.read_of_mem member]
  exact getLast?_textField (Nat.succ_pos size) text

/-- The message of an install request has a byte that is not zero, apart from the
magic, the type and the arguments: it is part of the version. -/
theorem install_message_holds_version :
    ¬ ∀ (T : Target) (r : Request) (sent : Record (Header.ipcMessage T.sizeT)),
        HandsOver (r.perform T) sent.bytes →
          sent.Carries (r.envelope T .type ++ r.arguments T) (r.padding T.sizeT) := by
  intro zero
  let r : Request := .install .new
  let path : List Ident := [.data, .instmsg, .req, .apiversion]
  have carried := carries_asHeader .x86_64 r
  have placed : (Header.ipcMessage .eight).place? path = some (8, Header.unsignedInt) := rfl
  have version : (r.asHeader .x86_64).read path = [1, 0, 0, 0] :=
    carried.read_of_mem (List.mem_cons_of_mem _ (List.mem_cons_of_mem _ List.mem_cons_self))
  have one : (r.asHeader .x86_64).bytes[8]? = some 1 := by
    have first := congrArg (·[0]?) ((Record.read_eq _ placed).symm.trans version)
    rwa [getElem?_slice] at first
  have silent := (zero .x86_64 r (r.asHeader .x86_64) (handsOver_message _ r)).zeros 8 (by decide)
    (fun f member => Layout.not_covers_of_apart
      (List.all_eq_true.mp (by rfl : (r.envelope .x86_64 .type ++ r.arguments .x86_64).all
        (fun f => (Header.ipcMessage .eight).apart f.1 path) = true) f member)
      ⟨8, _, placed, le_refl 8, by decide⟩) (by decide +kernel)
  rw [one] at silent
  cases silent

end SwupdateIpc
