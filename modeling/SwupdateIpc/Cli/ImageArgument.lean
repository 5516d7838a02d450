import SwupdateIpc.Cli.Outcomes

/-!
# The image argument of an installation

The help of the command line says that the image is the standard input when its file
argument is omitted or is a hyphen (`documentedImage`). Both branches of the command
take every argument for a path. So an installation writes its request and the documented
image exactly when the argument is not a hyphen, with progress and without
(`installs_documented_iff`).
-/

set_option autoImplicit false

namespace SwupdateIpc

open Foundations Wire

/-- The image that the help documents: the standard input when the file argument is
omitted or is a hyphen, and else the file. -/
def documentedImage : Option String → Image
  | none => .reader stdin
  | some path => if path = "-" then .reader stdin else .file path

theorem imageOf_eq_documented {file : Option String} (path : file ≠ some "-") :
    imageOf file = documentedImage file := by
  cases file with
  | none => rfl
  | some name =>
      have other : name ≠ "-" := fun same => path (congrArg some same)
      rw [documentedImage, if_neg other]
      rfl

/-- The bytes of an install request. -/
def installMessage (T : Target) (source : Source) (dryRun : Bool) (info : String) : List UInt8 :=
  ((Request.install (installRequest source dryRun info)).message T).bytes

/-- A command line can succeed in an environment, with these bytes on its control
connection. -/
def Succeeds (T : Target) (defaults : SocketConfig) (schedule : List Turn) (fuel : Nat)
    (cli : Cli) (c : Config (ControlClient × ProgressClient) (World Unit))
    (sent : List UInt8) : Prop :=
  ∃ c', Exec (World.device ()) (cli.run T defaults schedule fuel) c (.ok ()) c' ∧
    (c'.world.conns c'.own.1.stream).sent = sent.map (Prod.mk ())

section Installations

variable (file : Option String) (source : Source) (dryRun : Bool) (info : String)

/-- Whenever an installation succeeds, it has written its request and the documented
image. -/
def InstallsDocumented (progress : Bool) : Prop :=
  ∀ (T : Target) (defaults : SocketConfig) (schedule : List Turn) (fuel : Nat) (cli : Cli)
    (c c' : Config (ControlClient × ProgressClient) (World Unit)),
    cli.command = .install file progress source dryRun info →
      Exec (World.device ()) (cli.run T defaults schedule fuel) c (.ok ()) c' →
        (c'.world.conns c'.own.1.stream).sent = (installMessage T source dryRun info ++
          delivered ((documentedImage file).contents c.world)).map (Prod.mk ())

/-- An installation with progress writes the bytes of one without, from the same
environment. -/
def FlagChangesNothing : Prop :=
  ∀ (T : Target) (defaults : SocketConfig) (schedule schedule' : List Turn) (fuel fuel' : Nat)
    (ctrl progress : Option String) (c : Config (ControlClient × ProgressClient) (World Unit))
    (sent sent' : List UInt8),
    Succeeds T defaults schedule fuel ⟨ctrl, progress, .install file true source dryRun info⟩ c
      sent →
    Succeeds T defaults schedule' fuel' ⟨ctrl, progress, .install file false source dryRun info⟩ c
      sent' → sent = sent'

/-- An installation of a hyphen and one without an argument succeed alike, with the same
bytes. -/
def HyphenIsOmission (progress : Bool) : Prop :=
  ∀ (T : Target) (defaults : SocketConfig) (ctrl progressSocket : Option String)
    (c : Config (ControlClient × ProgressClient) (World Unit)) (sent : List UInt8),
    (∃ schedule fuel, Succeeds T defaults schedule fuel
      ⟨ctrl, progressSocket, .install (some "-") progress source dryRun info⟩ c sent) ↔
    ∃ schedule fuel, Succeeds T defaults schedule fuel
      ⟨ctrl, progressSocket, .install none progress source dryRun info⟩ c sent

variable {file source dryRun info}

/-- What an installation that succeeds has written. -/
theorem Succeeds.sent_eq {T : Target} {defaults : SocketConfig} {schedule : List Turn}
    {fuel : Nat} {ctrl progressSocket : Option String} {progress : Bool}
    {c : Config (ControlClient × ProgressClient) (World Unit)} {sent : List UInt8}
    (succeeds : Succeeds T defaults schedule fuel
      ⟨ctrl, progressSocket, .install file progress source dryRun info⟩ c sent) :
    endsCleanly ((imageOf file).contents c.world) = true ∧
      sent = installMessage T source dryRun info ++
        delivered ((imageOf file).contents c.world) := by
  obtain ⟨c', exec, same⟩ := succeeds
  obtain ⟨transferred, _⟩ := exec_install_command rfl exec
  refine ⟨transferred.clean, ?_⟩
  have bytes := same.symm.trans transferred.sent
  exact List.map_injective_iff.mpr (Prod.mk_right_injective ()) bytes

theorem flag_changes_nothing : FlagChangesNothing file source dryRun info := by
  intro T defaults schedule schedule' fuel fuel' ctrl progress c sent sent' first second
  rw [first.sent_eq.2, second.sent_eq.2]

/-- An installation of an image that is read without error can succeed. -/
theorem succeeds_stocked (file : Option String) (progress : Bool) (source : Source)
    (dryRun : Bool) (info : String) {files : String → Except IoError (List ReadResult)}
    {readers : Nat → List ReadResult}
    (clean : endsCleanly ((imageOf file).contents (stocked files readers)) = true) :
    ∃ (schedule : List Turn) (fuel : Nat)
        (c : Config (ControlClient × ProgressClient) (World Unit)) (sent : List UInt8),
      c.world = stocked files readers ∧
      Succeeds .x86_64 ⟨"ctrl", "progress", 0⟩ schedule fuel
        ⟨none, none, .install file progress source dryRun info⟩ c sent := by
  obtain ⟨schedule, fuel, c, c', world, ran, _⟩ :=
    run_installation file progress source dryRun info clean
  have exec := World.exec_serve () (Cli.run .x86_64 ⟨"ctrl", "progress", 0⟩ schedule fuel
    ⟨none, none, .install file progress source dryRun info⟩) c
  rw [ran] at exec
  have transferred := (exec_install_command rfl exec).1
  exact ⟨schedule, fuel, c, _, world, c', exec, transferred.sent⟩

/-- An installation of a hyphen writes the file of that name. -/
theorem not_installs_documented (progress : Bool) :
    ¬ InstallsDocumented (some "-") source dryRun info progress := by
  intro claim
  obtain ⟨schedule, fuel, c, sent, world, succeeds⟩ := @succeeds_stocked (some "-") progress source
    dryRun info (fun _ => .ok []) (fun _ => [.data [1]]) rfl
  obtain ⟨_, written⟩ := succeeds.sent_eq
  obtain ⟨c', exec, same⟩ := succeeds
  have documented := claim _ _ _ _ _ c c' rfl exec
  have selected : delivered ((documentedImage (some "-")).contents c.world) = [1] := by
    rw [world]
    rfl
  have read : delivered ((imageOf (some "-")).contents c.world) = [] := by
    rw [world]
    rfl
  rw [same, written, selected, read, List.append_nil] at documented
  have lengths := congrArg List.length documented
  simp only [List.length_map, List.length_append, List.length_singleton] at lengths
  omega

/-- **When an installation installs the documented image.** With progress and without,
the bytes on the control connection of a successful installation are its request and
the image that the help documents exactly if the file argument is not a hyphen. -/
theorem installs_documented_iff (file : Option String) (progress : Bool) (source : Source)
    (dryRun : Bool) (info : String) :
    (InstallsDocumented file source dryRun info progress ∧
      FlagChangesNothing file source dryRun info ∧
      (file = some "-" → HyphenIsOmission source dryRun info progress)) ↔ file ≠ some "-" := by
  constructor
  · rintro ⟨installs, _⟩ rfl
    exact not_installs_documented progress installs
  · intro path
    refine ⟨fun T defaults schedule fuel cli c c' command exec => ?_, flag_changes_nothing,
      fun hyphen => absurd hyphen path⟩
    rw [← imageOf_eq_documented path]
    exact (exec_install_command command exec).1.sent

end Installations

/-- Without a file that is named by a hyphen, an installation of a hyphen never succeeds,
and one without an argument can. -/
theorem hyphen_is_no_omission : ¬ HyphenIsOmission .local false "" true := by
  intro claim
  obtain ⟨schedule, fuel, c, sent, world, succeeds⟩ := @succeeds_stocked none true .local false ""
    (fun _ => .error "No such file or directory") (fun _ => []) rfl
  obtain ⟨schedule', fuel', hyphen⟩ :=
    (claim .x86_64 ⟨"ctrl", "progress", 0⟩ none none c sent).mpr ⟨schedule, fuel, succeeds⟩
  obtain ⟨clean, _⟩ := hyphen.sent_eq
  rw [world] at clean
  cases clean

end SwupdateIpc
