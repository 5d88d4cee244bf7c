import Mathlib.Logic.Basic

namespace Rozi

inductive PaneLaunch where
  | shell (command : String)
  | direct (argv : List String)
  deriving DecidableEq, Repr

def validateArgv (argv : List String) : Except String Unit :=
  match argv with
  | [] => .error "new-pane argv requires an executable"
  | program :: _ =>
      if program.isEmpty then .error "new-pane argv executable must not be empty"
      else if argv.any (·.toList.contains (Char.ofNat 0)) then
        .error "new-pane argv must not contain NUL bytes"
      else .ok ()

namespace PaneLaunch

def validate : PaneLaunch → Except String Unit
  | shell _ => .ok ()
  | direct argv => validateArgv argv

def requestDirect (argv : List String) : Except String PaneLaunch :=
  match validateArgv argv with
  | .ok _ => .ok (direct argv)
  | .error error => .error error

def display : PaneLaunch → String
  | shell command => command
  | direct argv => " ".intercalate argv

theorem validate_of_requestDirect {argv : List String} {launch : PaneLaunch}
    (built : requestDirect argv = .ok launch) : launch.validate = .ok () := by
  unfold requestDirect at built
  cases checked : validateArgv argv with
  | error error => simp [checked] at built
  | ok value =>
      rw [checked] at built
      obtain rfl := Except.ok.inj built
      exact checked

end PaneLaunch

end Rozi
