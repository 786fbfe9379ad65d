import Toolchain.Lib.Text

/-!
# Execution.Names — names of sessions and operations

A session or an operation is named by its instance, a slash and a UUID.  Later calls carry the name
only, and the instance is read from it up to the first slash.

Models `execution_util/src/lib.rs` and `instance_name_from_session_name` of
`proxy/src/server/bots_service.rs`.
-/

namespace Toolchain.Execution

open Lib List

def splitOnce (separator : Char) : Text → Option (Text × Text)
  | [] => none
  | c :: rest =>
    if c = separator then some ([], rest)
    else (splitOnce separator rest).map fun parts => (c :: parts.1, parts.2)

def generateSessionName (inst : Text) (uuid : Uuid) : Text :=
  inst ++ '/' :: uuid.text

def generateOperationName (inst : Text) (uuid : Uuid) : Text :=
  inst ++ '/' :: uuid.text

def instanceNameFromOperationName (name : Text) : Except Text Text :=
  match splitOnce '/' name with
  | some (inst, _) => .ok inst
  | none => .error ("unable to parse instance from `".toList ++ name ++ "`".toList)

def instanceNameFromSessionName (name : Text) : Except Text Text :=
  match splitOnce '/' name with
  | some (inst, _) => .ok inst
  | none => .error ("unable to parse instance from `".toList ++ name ++ "`".toList)

def proxyInstanceNameFromSessionName (session : Option Text) : Except Text Text :=
  match session with
  | none => .error "No bot_session in `UpdateBotSessionRequest`".toList
  | some name =>
    match splitOnce '/' name with
    | some (inst, _) => .ok inst
    | none => .error ("unable to parse instance name from `".toList ++ name ++ "`".toList)

lemma splitOnce_append (inst rest : Text) :
    ∃ first after, splitOnce '/' (inst ++ '/' :: rest) = some (first, after) ∧
    (first = inst ↔ '/' ∉ inst) := by
  induction inst with
  | nil => exact ⟨[], rest, by simp [splitOnce]⟩
  | cons c inst ih =>
    obtain ⟨first, after, hspl, hiff⟩ := ih
    by_cases hc : c = '/'
    · exact ⟨[], inst ++ '/' :: rest, by simp [splitOnce, hc]⟩
    · exact ⟨c :: first, after, by simp [splitOnce, hc, hspl], by simp [hiff, Ne.symm hc]⟩

/-- The instance comes back from the names exactly if it has no slash. -/
theorem names_route_back_iff (inst : Text) (uuid : Uuid) :
    (instanceNameFromSessionName (generateSessionName inst uuid) = .ok inst ∧
    instanceNameFromOperationName (generateOperationName inst uuid) = .ok inst ∧
    proxyInstanceNameFromSessionName (some (generateSessionName inst uuid)) = .ok inst) ↔
    '/' ∉ inst := by
  obtain ⟨first, after, hspl, hiff⟩ := splitOnce_append inst uuid.text
  simp only [instanceNameFromSessionName, instanceNameFromOperationName,
    proxyInstanceNameFromSessionName, generateSessionName, generateOperationName, hspl,
    Except.ok.injEq, and_self, hiff]

/-- A session of the instance `org/team` goes on as one of `org`. -/
theorem names_route_back_nested :
    instanceNameFromSessionName (generateSessionName "org/team".toList Uuid.nil) =
    .ok "org".toList :=
  rfl

end Toolchain.Execution
