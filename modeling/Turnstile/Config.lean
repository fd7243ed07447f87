import Turnstile.Policy
import Turnstile.Random
import Turnstile.Text.Words

/-!
# Configuration

A scheduler is configured by a policy and a seed. Both can be given on the command line, among
arguments meant for others:

* an argument **counts** if it has a `=` and what stands before the first one is exactly
  `sched` or `sched.seed` (`Setting.ofArgument?`);
* later arguments override earlier ones;
* the first argument that counts and has a bad value is the error of the whole line, so that a
  slip never quietly leaves the default in place.

The seed is a decimal numeral below 2^64. A zero seed is kept as it is; it is the generator that
replaces it.
-/

namespace Turnstile

/-- Why a command line gives no configuration. -/
inductive ConfigError
  | unknownPolicy (value : String)
  | invalidSeed (value : String)
deriving DecidableEq, Repr, Inhabited

/-- The wording of an error on the command line. -/
def ConfigError.message : ConfigError → String
  | unknownPolicy value => "unknown scheduler policy `" ++ value ++ "`"
  | invalidSeed value => "invalid lottery seed `" ++ value ++ "`"

/-- What a scheduler is set up with. -/
structure Config where
  policy : Policy
  seed : UInt64
deriving DecidableEq, Repr, Inhabited

namespace Config

/-- Priority scheduling and the usual seed. -/
def default : Config := { policy := .priority, seed := XorShift.defaultSeed }

/-- The configuration with another policy. -/
def withPolicy (config : Config) (policy : Policy) : Config := { config with policy }

/-- The configuration with another seed. -/
def withSeed (config : Config) (seed : UInt64) : Config := { config with seed }

end Config

/-- An argument that counts, with its value as written. -/
inductive Setting
  | policy (value : String)
  | seed (value : String)
deriving DecidableEq, Repr, Inhabited

namespace Setting

/-- What a single argument sets, if it counts. -/
def ofArgument? (argument : List Char) : Option Setting :=
  match Text.splitAt? '=' argument with
  | none => none
  | some (key, value) =>
    if key = "sched".toList then some (policy (String.ofList value))
    else if key = "sched.seed".toList then some (seed (String.ofList value))
    else none

/-- The arguments of a line that count, in order. -/
def ofLine (line : String) : List Setting := (Text.words line.toList).filterMap ofArgument?

end Setting

namespace Config

/-- The seed that a numeral stands for. -/
def seed? (value : String) : Option UInt64 :=
  match Text.numeral? value.toList with
  | some n => if n < 18446744073709551616 then some (UInt64.ofNat n) else none
  | none => none

/-- Apply one setting. -/
def apply (config : Config) : Setting → Except ConfigError Config
  | .policy value =>
    match Policy.ofName? value with
    | some policy => .ok (config.withPolicy policy)
    | none => .error (.unknownPolicy value)
  | .seed value =>
    match seed? value with
    | some seed => .ok (config.withSeed seed)
    | none => .error (.invalidSeed value)

/-- Apply settings in order, up to the first that has a bad value. -/
def applyAll (config : Config) : List Setting → Except ConfigError Config
  | [] => .ok config
  | setting :: rest =>
    match config.apply setting with
    | .ok config => config.applyAll rest
    | .error error => .error error

/-- The configuration that a command line asks for, over one to start from. -/
def override (config : Config) (line : String) : Except ConfigError Config :=
  config.applyAll (Setting.ofLine line)

/-- The configuration that a command line asks for. -/
def ofCommandLine (line : String) : Except ConfigError Config := default.override line

end Config

end Turnstile
