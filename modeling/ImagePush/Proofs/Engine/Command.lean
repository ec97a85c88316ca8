import ImagePush.Engine.Command

/-!
# Commands of requests

What stands in the arguments of the command for a request, and what the command reads. A command is built up
argument by argument; the lemmas about the single steps bring it into the form of a list.
-/

namespace ImagePush.Engine.Command

section

variable (c : Command) (name a secret : String) (condition : Bool)

@[simp] theorem args_named : (named name).args = [name] := rfl

@[simp] theorem input_named : (named name).input = none := rfl

@[simp] theorem args_arg : (c.arg a).args = c.args ++ [a] := rfl

@[simp] theorem input_arg : (c.arg a).input = c.input := rfl

@[simp] theorem args_argIf : (c.argIf condition a).args = c.args ++ if condition then [a] else [] := by
  cases condition <;> simp [argIf]

@[simp] theorem input_argIf : (c.argIf condition a).input = c.input := by
  cases condition <;> rfl

@[simp] theorem args_option :
    (c.option name a).args = c.args ++ if a.isEmpty then [] else [name, a] := by
  unfold option
  cases a.isEmpty <;> simp

@[simp] theorem input_option : (c.option name a).input = c.input := by
  unfold option
  cases a.isEmpty <;> rfl

@[simp] theorem args_password :
    (c.password secret).args = c.args ++ if secret.isEmpty then [] else [passwordOption] := by
  unfold password
  cases secret.isEmpty <;> simp [withInput]

@[simp] theorem input_password :
    (c.password secret).input = if secret.isEmpty then c.input else some secret := by
  unfold password
  cases secret.isEmpty <;> rfl

end

/-! ### The command for a request -/

/-- A login reads the password, if there is one. -/
theorem input_login (server username secret : String) :
    (ofRequest (.login server username secret)).input = if secret.isEmpty then none else some secret := by
  simp [ofRequest]

/-- No other command reads anything. -/
theorem input_ofRequest {r : Request} (hr : ∀ server username secret, r ≠ .login server username secret) :
    (ofRequest r).input = none := by
  cases r with
  | login server username secret => exact absurd rfl (hr server username secret)
  | logout | push | digest | remove => simp [ofRequest]

/-- Whether there is a password can be seen in the arguments of a login, but not which one. -/
theorem args_login (server username : String) {secret secret' : String}
    (hempty : secret.isEmpty = secret'.isEmpty) :
    (ofRequest (.login server username secret)).args = (ofRequest (.login server username secret')).args := by
  simp [ofRequest, hempty]

/-- The name of the command comes first. -/
theorem head_args_ofRequest (r : Request) :
    (ofRequest r).args.head? ∈ [some "login", some "logout", some "push", some "inspect", some "rmi"] := by
  cases r <;> simp [ofRequest]

/-- What a command reads is not shown in diagnostics, only that it reads something. -/
theorem diagnostic_congr {c d : Command} (hargs : c.args = d.args)
    (hinput : c.input.isSome = d.input.isSome) : c.diagnostic = d.diagnostic := by
  obtain ⟨args, input⟩ := c
  obtain ⟨args', input'⟩ := d
  obtain rfl : args = args' := hargs
  cases input with
  | none =>
    cases input' with
    | none => rfl
    | some => cases hinput
  | some =>
    cases input' with
    | none => cases hinput
    | some => rfl

end ImagePush.Engine.Command
