import SwupdateIpc.Progress.Session

/-!
# Daemons that are replaced

Between two connections of a progress client another version of the daemon may be
installed. The client detects a layout when it first connects, and it keeps it along
every run (`ProgressStarted.run_layout`). So a message is read with the layout of the
version that its connection was opened to exactly when that version has the layout of
the one first detected (`ProgressStarted.read_as_installed_iff`), and a daemon of
another layout is misread after a reconnect (`replaced_daemon_is_misread`).
-/

set_option autoImplicit false

namespace SwupdateIpc

open Foundations Wire

/-- The layout of the messages of a release. -/
def Release.layout (release : Release) : ProgressLayout :=
  if firstPacked ≤ release then .packed else .unpacked

/-- A printed release is detected with its layout. -/
theorem PrintedRelease.layout_output (r : PrintedRelease) :
    layoutOfVersion r.output = r.release.layout := by
  have packed := layoutOfVersion_eq_packed r.parsed
  rw [Release.layout]
  split
  next late => exact packed.mpr late
  next early =>
    cases layout : layoutOfVersion r.output with
    | packed => exact absurd (packed.mp layout) early
    | unpacked => rfl

/-- A client that runs a printed release takes its layout. -/
theorem PrintedRelease.layoutOfOutput_output (r : PrintedRelease) :
    layoutOfOutput (.ok (utf8Bytes r.output)) = r.release.layout := by
  rw [layoutOfOutput, fromUtf8Lossy_utf8Bytes, r.layout_output]

theorem Wire.ProgressLayout.msgSize_injective : Function.Injective ProgressLayout.msgSize := by
  intro layout layout' same
  cases layout <;> cases layout' <;> first | rfl | cases same

/-- A progress client that has just connected, while a release was installed. -/
def ProgressStarted (T : Target) (r : PrintedRelease) (s : ProgressSession) : Prop :=
  ∃ (config : SocketConfig) (c : Config ProgressClient (World Unit)),
    c.world.output.1 = .ok (utf8Bytes r.output) ∧
      Exec (World.device ()) (ProgressClient.connect T config) c (.ok ()) ⟨s.client, s.net⟩

/-- A step received a message with a layout: its last read took as many bytes as a
message of the layout has, and its event is what they stand for in it. -/
def ReadWith (T : Target) (layout : ProgressLayout)
    (e : Transition ProgressSession ProgressDone) : Prop :=
  ∃ earlier frame, e.after.conn.reads = earlier ++ [⟨frame, true⟩] ∧
    frame.length = layout.msgSize ∧ e.label.outcome = .ok (layout.decode T frame)

section Runs

variable {T : Target} {r : PrintedRelease} {s s' : ProgressSession}
  {es : List (Transition ProgressSession ProgressDone)}

/-- The layout is the one of the release that was installed. -/
theorem ProgressStarted.layout (started : ProgressStarted T r s) :
    s.client.layout = r.release.layout := by
  obtain ⟨config, c, printed, exec⟩ := started
  obtain ⟨_, _, _, _, own, _⟩ := ProgressClient.exec_connect_ok exec
  have held : s.client.layout = layoutOfOutput c.world.output.1 :=
    congrArg ProgressClient.layout own
  rw [held, printed, r.layoutOfOutput_output]

/-- **No run changes the layout**, however often it reconnects. -/
theorem ProgressStarted.run_layout (started : ProgressStarted T r s)
    (run : Run (ProgressStep T) s es s') : s'.client.layout = r.release.layout := by
  let kept : ProgressSession → Prop := fun s => s.client.layout = r.release.layout
  show kept s'
  refine run.keeps (fun e _ step before => ?_) started.layout
  exact step.effect.1.trans before

/-- A message is received with the layout that the client holds, and with no other. -/
theorem ProgressStep.readWith_iff {e : Transition ProgressSession ProgressDone}
    (step : ProgressStep T e) {layout : ProgressLayout}
    (received : ∃ event, e.label.outcome = .ok event) :
    ReadWith T layout e ↔ layout = e.before.client.layout := by
  obtain ⟨_, effect⟩ := step.effect
  obtain ⟨event, returned⟩ := received
  rw [ReadWith, returned]
  rw [returned] at effect
  generalize outcome : Outcome.ok event = o at effect ⊢
  cases effect with
  | silence none => exact absurd outcome.symm (none event)
  | @event base frame _ _ full conn =>
      have reads : e.after.conn.reads = base.reads ++ [⟨frame, true⟩] := by
        rw [conn, Conn.reads_record]
      constructor
      · rintro ⟨earlier, frame', reads', size, _⟩
        have last : [(⟨frame, true⟩ : Stretch)] = [⟨frame', true⟩] :=
          (List.append_inj' (reads.symm.trans reads') rfl).2
        cases last
        exact ProgressLayout.msgSize_injective (size.symm.trans full)
      · rintro rfl
        exact ⟨base.reads, frame, reads, full, rfl⟩

/-- **When messages are read as the daemon writes them.** Let any release be installed
when a connection is opened, another one for every connection. A message received on a
connection is read with the layout of the release that was installed at its opening
exactly when this is the layout of the release that was installed when the client first
connected. -/
theorem ProgressStarted.read_as_installed_iff (started : ProgressStarted T r s)
    (run : Run (ProgressStep T) s es s') (installed : Nat → Release) :
    ∀ e ∈ es, (∃ event, e.label.outcome = .ok event) →
      (ReadWith T (installed e.after.client.stream).layout e ↔
        (installed e.after.client.stream).layout = r.release.layout) := by
  intro e member received
  obtain ⟨_, _, _, before, step, _⟩ := run.at_mem member
  rw [step.readWith_iff received, started.run_layout before]

end Runs

/-! ## A daemon of another layout -/

/-- The output of a release in the documented form. -/
def documented (year month : UInt32) : PrintedRelease where
  before := "SWUpdate ".toList
  yearZeros := 0
  year := year
  monthZeros := if month < 10 then 1 else 0
  month := month
  rest := none
  after := []
  before_ends := by
    rintro c ⟨⟩
    rfl
  before_other := by decide
  rest_solid := nofun
  after_begins := nofun

example : (documented 2024 5).output = "SWUpdate v2024.05" := by decide

/-- A client that starts while a release is installed, connected to a peer that greets
and writes some bytes. -/
theorem started_documented (T : Target) (year month : UInt32) (bytes : List UInt8)
    (later : List (Attempt Unit)) :
    ∃ s, ProgressStarted T (documented year month) s ∧ ProgressOpened T s ∧
      s.conn.available = bytes ∧ s.net.attempts s.client.config.progressPath = later := by
  obtain ⟨s, c, outputs, ran, conn, left⟩ :=
    started_offered T ⟨"", "", 0⟩ (.scripted (ackBytes T ++ bytes)) (greets_ackBytes T bytes) later
      [.ok (utf8Bytes (documented year month).output)]
  have exec := World.exec_serve () (ProgressClient.connect T ⟨"", "", 0⟩) c
  rw [ran] at exec
  refine ⟨s, ⟨_, c, ?_, exec⟩, ⟨_, c, ran⟩, ?_, left⟩
  · rw [World.output, outputs]
  · rw [conn, available_pull_fresh]
    exact drop_ackBytes T bytes

/-- A client connects while 2024.05 is installed, and receives a message. Its connection is
lost, 2024.12 is installed, and the client reconnects to that. It has the same layout, so
both messages are read as they are written. -/
theorem read_as_installed_alike :
    ∃ (s s' : ProgressSession) (es : List (Transition ProgressSession ProgressDone))
      (installed : Nat → Release),
      ProgressStarted .x86_64 (documented 2024 5) s ∧ Run (ProgressStep .x86_64) s es s' ∧
      installed s.client.stream = toLex (2024, 5) ∧ installed s'.client.stream = toLex (2024, 12) ∧
      es.map (fun e => e.label.action) = [.receive, .receiveOrReconnect] ∧
      (∀ e ∈ es, ∃ event, e.label.outcome = .ok event) ∧
      (∀ e ∈ es, (∃ event, e.label.outcome = .ok event) →
        (ReadWith .x86_64 (installed e.after.client.stream).layout e ↔
          (installed e.after.client.stream).layout = (documented 2024 5).release.layout)) ∧
      ∀ e ∈ es, ReadWith .x86_64 (installed e.after.client.stream).layout e := by
  obtain ⟨second, greets, written⟩ : ∃ peer : Peer Unit, Greets .x86_64 (peer.wrote []) ∧
      (peer.wrote []).drop 8 = List.replicate 2416 0 :=
    ⟨.scripted (ackBytes .x86_64 ++ List.replicate 2416 0), greets_ackBytes .x86_64 _,
      drop_ackBytes .x86_64 _⟩
  obtain ⟨s, started, opened, left, later⟩ :=
    started_documented .x86_64 2024 5 (List.replicate 2416 0) [.accepted second]
  have newest := opened.fresh.1
  have size : s.client.layout.msgSize = 2416 := by
    rw [started.layout]
    rfl
  have enough : s.client.layout.msgSize ≤ (List.replicate 2416 (0 : UInt8)).length := by
    rw [List.length_replicate, size]
  have one : s.conn.available.length < 2 * s.client.layout.msgSize := by
    rw [left, List.length_replicate, size]
    decide
  obtain ⟨e₁, e₂, rfl, meet, first, again, label₁, label₂, own, stream, _⟩ :=
    receives_twice (left ▸ enough) one later greets (written ▸ enough)
  have run := Run.pair first.step again.step meet
  have received : ∀ e ∈ [e₁, e₂], ∃ event, e.label.outcome = .ok event :=
    List.forall_mem_cons.mpr ⟨⟨_, congrArg (·.outcome) label₁⟩,
      List.forall_mem_singleton.mpr ⟨_, congrArg (·.outcome) label₂⟩⟩
  let installed : Nat → Release := fun fd =>
    if fd = e₁.before.client.stream then toLex (2024, 5) else toLex (2024, 12)
  have old : installed e₁.before.client.stream = toLex (2024, 5) := if_pos rfl
  have new : installed e₂.after.client.stream = toLex (2024, 12) := by
    rw [stream]
    exact if_neg (by omega)
  have alike : ∀ fd, (installed fd).layout = (documented 2024 5).release.layout := by
    intro fd
    show Release.layout (if _ then _ else _) = _
    split <;> rfl
  have read := started.read_as_installed_iff run installed
  refine ⟨_, _, [e₁, e₂], installed, started, run, old, new, ?_, received, read, ?_⟩
  · rw [List.map_cons, List.map_cons, label₁, label₂]
    rfl
  · exact fun e member => (read e member (received e member)).mpr (alike _)

/-- A client connects while 2024.05 is installed. Its connection is lost, 2025.12 is
installed, and the client reconnects to that and reads its message with the layout of
2024.05. -/
theorem replaced_daemon_is_misread :
    ¬ ∀ (T : Target) (r : PrintedRelease) (s s' : ProgressSession)
        (es : List (Transition ProgressSession ProgressDone)) (installed : Nat → Release),
        ProgressStarted T r s → installed s.client.stream = r.release →
          Run (ProgressStep T) s es s' →
            ∀ e ∈ es, (∃ event, e.label.outcome = .ok event) →
              ReadWith T (installed e.after.client.stream).layout e := by
  intro claim
  let second : Peer Unit := .scripted (ackBytes .x86_64 ++ List.replicate 2416 0)
  have greets : Greets .x86_64 (second.wrote []) := greets_ackBytes .x86_64 _
  obtain ⟨s, started, opened, left, later⟩ :=
    started_documented .x86_64 2024 5 [] [.accepted second]
  have newest := opened.fresh.1
  have short : s.conn.available.length < s.client.layout.msgSize := by
    rw [left]
    exact s.client.layout.msgSize_pos
  have served := served_renewed short later greets
  have enough : (s.renewed second).client.layout.msgSize ≤
      (s.renewed second).conn.available.length := by
    have bytes : (s.renewed second).conn.available = List.replicate 2416 0 := by
      rw [s.conn_renewed, available_pull_fresh]
      exact drop_ackBytes .x86_64 _
    rw [bytes, List.length_replicate]
    exact (s.renewed second).client.layout.msgSize_le
  have received : ∃ event, (s.renewed second).next .x86_64 = .ok event := ⟨_, if_pos enough⟩
  have read := claim .x86_64 (documented 2024 5) s _ _
    (fun fd => if fd = s.client.stream then toLex (2024, 5) else toLex (2025, 12)) started
    (if_pos rfl) (Run.start.step served.step) _ (List.mem_singleton_self _) received
  have new : s.net.opened ≠ s.client.stream := by omega
  have same := (served.step.readWith_iff received).mp read
  change Release.layout (if s.net.opened = _ then _ else _) = s.client.layout at same
  rw [if_neg new, started.layout] at same
  exact absurd same (by decide)

end SwupdateIpc
