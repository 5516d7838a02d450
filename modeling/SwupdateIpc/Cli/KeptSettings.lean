import SwupdateIpc.Cli.Scripts

/-!
# Settings that a daemon keeps

A service keeps a setting when an acknowledged request to set it leaves the value given, and
when nothing else changes it (`Register`). After a script of commands, the setting is what
the last command that set it and succeeded has left (`Register.read_script`).

So a variable is printed as it was last set, under names that arrive as its own, and the
update state is printed as it was last set (`settings_are_printed`).
-/

set_option autoImplicit false

namespace SwupdateIpc

open Foundations Wire

variable {T : Target} {τ : Type} {mark : τ} {service : Service} {V : Type}

/-! ## Setting a value -/

/-- What a request sets, of one setting. Such a request is acknowledged or refused, and it
is no install request. -/
structure Setter (V : Type) where
  sets : Received → Option V
  acknowledged : ∀ r v, sets r = some v → Answer.ack.fits r = true
  plain : ∀ T req, sets ((Request.install req).received T) = none

/-- The variable of a name in a namespace, as they arrive. -/
def Setter.var (varnamespace varname : List UInt8) : Setter (List UInt8) where
  sets
    | .setSwupdateVars ns name value =>
        if ns = varnamespace ∧ name = varname then some value else none
    | _ => none
  acknowledged := by
    intro r v given
    cases r with
    | setSwupdateVars => rfl
    | _ => cases given
  plain _ _ := rfl

/-- The update state. -/
def Setter.updateState : Setter UpdateState where
  sets
    | .setUpdateState code => UpdateState.fromWire code
    | _ => none
  acknowledged := by
    intro r v given
    cases r with
    | setUpdateState => rfl
    | _ => cases given
  plain _ _ := rfl

/-- What a command sets. -/
def Command.sets (T : Target) (setter : Setter V) (command : Command) : Option V :=
  command.request.bind fun r => setter.sets (r.received T)

/-- A command that sets something streams no image. -/
theorem Command.sets_plain {setter : Setter V} {command : Command} {r : Request} {v : V}
    (request : command.request = some r) (sets : setter.sets (r.received T) = some v) :
    command.image = none := by
  cases command with
  | install file progress source dryRun info =>
      obtain rfl := Option.some.inj request
      rw [setter.plain] at sets
      cases sets
  | _ => rfl

/-- A request that can be acknowledged is acknowledged or refused. -/
theorem Answer.ack_or_nack {answer : Answer} {r : Received}
    (acknowledged : Answer.ack.fits r = true) (fits : answer.fits r = true) :
    answer = .ack ∨ answer = .nack := by
  cases answer with
  | ack => exact .inl rfl
  | nack => exact .inr rfl
  | _ => cases r <;> cases acknowledged <;> cases fits

/-! ## Keeping it -/

/-- A service keeps a setting. -/
structure Register (service : Service) (setter : Setter V) where
  read : service.State → V
  written : ∀ state r v, setter.sets r = some v → (service.answer state r).2 = .ack →
    read (service.answer state r).1 = v
  kept : ∀ state r, setter.sets r = none ∨ (service.answer state r).2 = .nack →
    read (service.answer state r).1 = read state
  image : ∀ state b, read (service.image state b) = read state

namespace Register

variable {setter : Setter V} (register : Register service setter)

theorem read_image (state : service.State) (bytes : List UInt8) :
    register.read (bytes.foldl service.image state) = register.read state := by
  induction bytes generalizing state with
  | nil => rfl
  | cons b bs ih => exact (ih _).trans (register.image state b)

/-- A command that sets nothing leaves the setting as it is. -/
theorem read_unset (state : service.State) {command : Command} (contents : List ReadResult)
    (unset : command.sets T setter = none) :
    register.read (service.commanded T state command contents).1 = register.read state := by
  cases request : command.request with
  | none => simp only [Service.commanded, request]
  | some r =>
      rw [Command.sets, request] at unset
      have kept := register.kept state (r.received T) (.inl unset)
      simp only [Service.commanded, request]
      split
      · exact kept
      · split
        · exact kept
        · split
          · exact (register.read_image _ _).trans kept
          · exact (register.read_image _ _).trans kept

/-- **A command** sets what it is to set if it succeeds, and nothing else. -/
theorem read_commanded (state : service.State) (command : Command) (contents : List ReadResult) :
    register.read (service.commanded T state command contents).1 =
      if (service.commanded T state command contents).2.1 = some 0 then
        (command.sets T setter).getD (register.read state)
      else register.read state := by
  cases sets : command.sets T setter with
  | none => rw [register.read_unset state contents sets, Option.getD_none, ite_self]
  | some v =>
      obtain ⟨r, request, given⟩ := Option.bind_eq_some_iff.mp sets
      have plain := Command.sets_plain request given
      rcases Answer.ack_or_nack (setter.acknowledged _ _ given) (service.fits state _) with
        granted | refused
      · have result : (service.answer state (r.received T)).2.result r = .ok r.ackValue := by
          rw [granted]
          rfl
        simp only [Service.commanded, request, result, plain, if_true]
        exact register.written state _ v given granted
      · have result : (service.answer state (r.received T)).2.result r = .error .rejected := by
          rw [refused]
          rfl
        simp only [Service.commanded, request, result]
        exact register.kept state _ (.inr refused)

end Register

/-! ## Along a script -/

section Scripts

variable {d : Daemon T service} {defaults : SocketConfig} {fuel : Nat}
  {state state' : service.State} {w w' : World τ}
  {es : List (Transition (service.State × World τ) (Cli × Option Nat × List String))}

/-- What a setting was last set to by a command that succeeded. -/
def lastSet (T : Target) (setter : Setter V) (value : V)
    (es : List (Transition (service.State × World τ) (Cli × Option Nat × List String))) : V :=
  es.foldl (fun value e =>
    if e.label.2.1 = some 0 then (e.label.1.command.sets T setter).getD value else value) value

/-- **After a script** a setting is what it was last set to. -/
theorem Register.read_script {setter : Setter V} (register : Register service setter)
    (script : Run (CommandRun d mark defaults fuel) (state, w) es (state', w'))
    (attainable : ∀ e ∈ es, Attainable fuel e) :
    register.read state' = lastSet T setter (register.read state) es := by
  generalize last : (state', w') = final at script
  induction script generalizing state' w' with
  | start =>
      cases last
      rfl
  | @step es e script ran ih =>
      obtain ⟨told, _⟩ := ran.commanded (attainable e (by simp))
      have earlier := @ih e.before.1 e.before.2
        (fun x member => attainable x (List.mem_append_left _ member)) rfl
      obtain ⟨rfl, rfl⟩ := (Prod.mk.injEq ..).mp last
      have read := register.read_commanded (T := T) e.before.1 e.label.1.command (scripted e).2
      rw [← told, earlier] at read
      rw [lastSet, List.foldl_append]
      exact read

/-- A service that keeps its variables and its update state, and answers with them. -/
structure Settings (service : Service) where
  var (varnamespace varname : List UInt8) : Register service (Setter.var varnamespace varname)
  updateState : Register service Setter.updateState
  answersVar : ∀ state varnamespace varname, ∃ ns name,
    (service.answer state (.getSwupdateVars varnamespace varname)).2 =
      .var ns name ((var varnamespace varname).read state)
  answersState : ∀ state,
    (service.answer state .getUpdateState).2 = .state (updateState.read state)

/-- **Settings are printed as they were last set.** At the end of a script, a query of a
variable prints the last value that a command has set successfully, among the commands whose
names for it arrive as those of the query, and a query of the update state prints the last
one set. -/
theorem settings_are_printed (settings : Settings service)
    {e : Transition (service.State × World τ) (Cli × Option Nat × List String)}
    (script : Run (CommandRun d mark defaults fuel) (state, w) (es ++ [e]) (state', w'))
    (attainable : ∀ x ∈ es ++ [e], Attainable fuel x) :
    (∀ varNamespace name, e.label.1.command = .getVar varNamespace name →
      e.label.2 = (some 0, [fromUtf8Lossy (lastSet T
        (.var (arrived 256 varNamespace) (arrived 256 name))
        ((settings.var (arrived 256 varNamespace) (arrived 256 name)).read state) es)])) ∧
    (e.label.1.command = .getState →
      e.label.2 =
        (some 0, [(lastSet T .updateState (settings.updateState.read state) es).debug])) := by
  obtain ⟨before, ran, _⟩ := script.cut
  obtain ⟨told, _⟩ := ran.commanded (attainable e (by simp))
  have answered := congrArg Prod.snd told
  have earlier : ∀ x ∈ es, Attainable fuel x :=
    fun x member => attainable x (List.mem_append_left _ member)
  constructor
  · intro varNamespace name gets
    have read := (settings.var (arrived 256 varNamespace) (arrived 256 name)).read_script
      before earlier
    obtain ⟨ns, name', answer⟩ := settings.answersVar e.before.1 (arrived 256 varNamespace)
      (arrived 256 name)
    rw [← read, show e.label.2 = _ from answered, gets]
    simp only [Service.commanded, Command.request, Request.received, answer]
    rfl
  · intro gets
    have read := settings.updateState.read_script before earlier
    rw [← read, show e.label.2 = _ from answered, gets]
    simp only [Service.commanded, Command.request, Request.received, settings.answersState]
    rfl

end Scripts

/-! ## A service that keeps them -/

/-- The variables of a service, which all fit in a reply, and its update state. -/
structure KeptState where
  vars : List UInt8 × List UInt8 → List UInt8
  fits : ∀ key, FitsIn 256 (vars key)
  updateState : UpdateState

/-- Set a variable. -/
def KeptState.setVar (state : KeptState) (key : List UInt8 × List UInt8) {value : List UInt8}
    (fits : FitsIn 256 value) : KeptState where
  vars := Function.update state.vars key value
  fits other := by
    by_cases same : other = key
    · rw [same, Function.update_self]
      exact fits
    · rw [Function.update_of_ne same]
      exact state.fits other
  updateState := state.updateState

instance (size : Nat) (text : List UInt8) : Decidable (FitsIn size text) :=
  inferInstanceAs (Decidable (_ ∧ _))

/-- A service that keeps its settings. -/
def keeping : Service where
  State := KeptState
  start := ⟨fun _ => [], fun _ => ⟨List.not_mem_nil, Nat.zero_lt_succ 255⟩, .ok⟩
  answer state
    | .setSwupdateVars ns name value =>
        if fits : FitsIn 256 value then (state.setVar (ns, name) fits, .ack) else (state, .nack)
    | .getSwupdateVars ns name => (state, .var [] [] (state.vars (ns, name)))
    | .setUpdateState code =>
        match UpdateState.fromWire code with
        | some updateState => ({ state with updateState }, .ack)
        | none => (state, .nack)
    | .getUpdateState => (state, .state state.updateState)
    | .getStatus => (state, .status .idle .idle 0 [])
    | .getHwRevision => (state, .hwRevision [] [])
    | _ => (state, .ack)
  image state _ := state
  fits := by
    intro state r
    cases r with
    | setSwupdateVars ns name value =>
        dsimp only
        split <;> rfl
    | setUpdateState code =>
        dsimp only
        split <;> rfl
    | _ => rfl

theorem keeping_stores (state : keeping.State) (ns name : List UInt8) {value : List UInt8}
    (fits : FitsIn 256 value) :
    keeping.answer state (.setSwupdateVars ns name value) =
      (KeptState.setVar state (ns, name) fits, .ack) := dif_pos fits

theorem keeping_refuses (state : keeping.State) (ns name : List UInt8) {value : List UInt8}
    (long : ¬ FitsIn 256 value) :
    keeping.answer state (.setSwupdateVars ns name value) = (state, .nack) := dif_neg long

theorem representable_keeping (state : KeptState) (r : Received) :
    (keeping.answer state r).2.Representable := by
  have empty : ∀ size, 0 < size → FitsIn size [] := fun _ positive => ⟨List.not_mem_nil, positive⟩
  cases r with
  | getStatus => exact empty 2048 (by omega)
  | getHwRevision => exact ⟨empty 256 (by omega), empty 256 (by omega)⟩
  | getSwupdateVars ns name =>
      exact ⟨empty 256 (by omega), empty 256 (by omega), state.fits (ns, name)⟩
  | setSwupdateVars ns name value =>
      by_cases fits : FitsIn 256 value
      · rw [keeping_stores state ns name fits]
        trivial
      · rw [keeping_refuses state ns name fits]
        trivial
  | setUpdateState code =>
      simp only [keeping]
      split <;> exact trivial
  | _ => exact trivial

/-- The variables that the service keeps. -/
def keeping.var (varnamespace varname : List UInt8) :
    Register keeping (Setter.var varnamespace varname) where
  read := fun state : KeptState => state.vars (varnamespace, varname)
  written := by
    intro state r v sets granted
    cases r with
    | setSwupdateVars ns name value =>
        by_cases fits : FitsIn 256 value
        · rw [keeping_stores state ns name fits]
          simp only [Setter.var] at sets
          split at sets
          next same =>
            obtain ⟨rfl, rfl⟩ := same
            cases sets
            exact Function.update_self _ _ _
          next => cases sets
        · rw [keeping_refuses state ns name fits] at granted
          cases granted
    | _ => cases sets
  kept := by
    intro state r unset
    cases r with
    | setSwupdateVars ns name value =>
        by_cases fits : FitsIn 256 value
        · rw [keeping_stores state ns name fits] at unset ⊢
          rcases unset with other | ⟨⟨⟩⟩
          simp only [Setter.var] at other
          split at other
          next => cases other
          next apart =>
            refine Function.update_of_ne ?_ _ _
            rintro ⟨⟩
            exact apart ⟨rfl, rfl⟩
        · rw [keeping_refuses state ns name fits]
    | setUpdateState code =>
        simp only [keeping]
        split <;> rfl
    | _ => rfl
  image _ _ := rfl

/-- The update state that it keeps. -/
def keeping.updateState : Register keeping Setter.updateState where
  read := fun state : KeptState => state.updateState
  written := by
    intro state r v sets granted
    cases r with
    | setUpdateState code =>
        change UpdateState.fromWire code = some v at sets
        simp only [keeping, sets]
    | _ => cases sets
  kept := by
    intro state r unset
    cases r with
    | setUpdateState code =>
        simp only [keeping] at unset ⊢
        split
        next u given =>
          rw [given] at unset
          rcases unset with other | ⟨⟨⟩⟩
          change UpdateState.fromWire code = none at other
          rw [other] at given
          cases given
        next => rfl
    | setSwupdateVars ns name value =>
        by_cases fits : FitsIn 256 value
        · rw [keeping_stores state ns name fits]
          rfl
        · rw [keeping_refuses state ns name fits]
    | _ => rfl
  image _ _ := rfl

/-- It answers with them. -/
def keeping.settings : Settings keeping where
  var := keeping.var
  updateState := keeping.updateState
  answersVar _ _ _ := ⟨[], [], rfl⟩
  answersState _ := rfl

/-- What arrives of a text fits in a reply. -/
theorem fitsIn_arrived {size : Nat} (positive : 0 < size) (text : String) :
    FitsIn size (arrived size text) := by
  refine ⟨?_, ?_⟩
  · intro member
    exact absurd (List.mem_takeWhile_imp member) (by decide)
  · have shorter := (List.takeWhile_prefix (p := (· != 0))
      (l := (utf8Bytes text).take (size - 1))).length_le
    rw [List.length_take] at shorter
    rw [arrived, cString]
    omega

/-- A variable is set and then queried. -/
theorem settings_are_printed_set :
    ∃ (d : Daemon .x86_64 keeping) (w w' : World Unit) (state' : keeping.State)
      (e e' : Transition (keeping.State × World Unit) (Cli × Option Nat × List String)),
      Run (CommandRun d () ⟨"ctrl", "progress", 0⟩ 1) (keeping.start, w) ([e] ++ [e'])
        (state', w') ∧
      e.label.1.command = .setVar "boot" "ok" "1" ∧ e'.label.1.command = .getVar "boot" "ok" ∧
      e'.label.2 = (some 0, ["1"]) := by
  let d : Daemon .x86_64 keeping := .filling _ representable_keeping
  let attempts : keeping.State → String → List (Attempt Unit) :=
    fun state _ => [.accepted (d.host state)]
  let own : ControlClient × ProgressClient :=
    (⟨0, ⟨"ctrl", "progress", 0⟩⟩, ⟨0, ⟨"ctrl", "progress", 0⟩, .packed⟩)
  let w : World Unit := .initial (attempts keeping.start)
  obtain ⟨e, before, cli, ran, attainable, offers⟩ :=
    @commandRun_exists .x86_64 Unit keeping d () ⟨"ctrl", "progress", 0⟩ 1 own keeping.start w []
      ⟨none, none, .setVar "boot" "ok" "1"⟩ rfl rfl (Nat.lt_succ_self 0) attempts
  obtain ⟨e', before', cli', ran', attainable', _⟩ :=
    @commandRun_exists .x86_64 Unit keeping d () ⟨"ctrl", "progress", 0⟩ 1 own e.after.1 e.after.2
      [] ⟨none, none, .getVar "boot" "ok"⟩ rfl (congrFun offers _) (Nat.lt_succ_self 0) attempts
  have begun : Run (CommandRun d () ⟨"ctrl", "progress", 0⟩ 1) (keeping.start, w) [e]
      e'.before := by
    rw [before', ← before]
    exact Run.start.step ran
  have script : Run (CommandRun d () ⟨"ctrl", "progress", 0⟩ 1) (keeping.start, w) ([e] ++ [e'])
      (e'.after.1, e'.after.2) := begun.step ran'
  have printed := (settings_are_printed keeping.settings script (by
    intro x member
    rcases List.mem_pair.mp member with rfl | rfl
    · exact attainable
    · exact attainable')).1 "boot" "ok" (by rw [cli'])
  have set : e.label.2.1 = some 0 := by
    obtain ⟨told, _⟩ := ran.commanded attainable
    have exits := congrArg (fun told => told.2.1) told
    rw [show e.label.2.1 = _ from exits, cli]
    simp only [Service.commanded, Command.request, Request.received,
      keeping_stores _ _ _ (fitsIn_arrived (Nat.zero_lt_succ 255) "1")]
    rfl
  have last : lastSet .x86_64 (.var (arrived 256 "boot") (arrived 256 "ok"))
      ((keeping.settings.var (arrived 256 "boot") (arrived 256 "ok")).read keeping.start) [e] =
        arrived 256 "1" := by
    simp only [lastSet, List.foldl_cons, List.foldl_nil, set, if_true, cli]
    simp [Command.sets, Command.request, Request.received, Setter.var]
  refine ⟨d, w, e'.after.2, e'.after.1, e, e', script, by rw [cli], by rw [cli'], ?_⟩
  rw [printed, last]
  exact congrArg (fun text => (some 0, [text]))
    (@Request.fromUtf8Lossy_arrived ⟨[], 256, "1"⟩ ⟨by decide, by decide⟩)

end SwupdateIpc
