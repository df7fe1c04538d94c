import SourceGen.Program.Error

/-!
# Cancellation

A host gives up a running pass through a token. Tokens may share a flag: what is cancelled through one is
cancelled for all that share it.
-/

namespace SourceGen

/-- Named tokens and the flags they share. -/
structure TokenTable where
  /-- The flag of every token. -/
  tokens : List (String × Nat)
  /-- Which flags are raised. -/
  flags : List Bool
deriving DecidableEq, Repr

namespace TokenTable

/-- No token exists. -/
def empty : TokenTable := ⟨[], []⟩

/-- The flag of a token. -/
def flag? (t : TokenTable) (token : String) : Option Nat :=
  (t.tokens.find? (·.1 = token)).map (·.2)

/-- Lets a token stand for a flag. -/
def bind (t : TokenTable) (token : String) (flag : Nat) : TokenTable :=
  { t with tokens := t.tokens.filter (·.1 ≠ token) ++ [(token, flag)] }

/-- A token with a flag of its own. -/
def new (t : TokenTable) (token : String) : TokenTable :=
  { t.bind token t.flags.length with flags := t.flags ++ [false] }

/-- The table in which a token exists; one that was missing is new. -/
def ensure (t : TokenTable) (token : String) : TokenTable :=
  if (t.flag? token).isSome then t else t.new token

/-- A token that shares the flag of another one. -/
def share (t : TokenTable) (token source : String) : TokenTable :=
  let t := t.ensure source
  match t.flag? source with
  | some flag => t.bind token flag
  | none => t

/-- Cancels through a token. -/
def cancel (t : TokenTable) (token : String) : TokenTable :=
  let t := t.ensure token
  match t.flag? token with
  | some flag => { t with flags := t.flags.set flag true }
  | none => t

/-- What a check of a token says. -/
def check (t : TokenTable) (flag : Nat) : Except PassError Unit :=
  if t.flags[flag]?.getD false then .error .cancelled else .ok ()

end TokenTable

end SourceGen
