import TurboAgent.Data.Json

/-!
# The agent policy

The policy decides on an action from its kind, its arguments and the grants of the
host.  A path argument has to stay inside the workspace root; both are brought into
a normal form by one pass over the text that keeps the output so far in a buffer,
and then compared as texts.

The definitions follow the build for systems without drive letters, where no
character is folded to lower case.
-/

namespace TurboAgent.Policy

/-- `turbo_agent_policy_t`, as far as actions read it. -/
structure AgentPolicy where
  workspaceRoot : Option CString
  (autoApproveSafe allowShell allowPatch allowOutsideWorkspace : Bool)

/-- `turbo_agent_policy_default`. -/
def default : AgentPolicy where
  workspaceRoot := none
  autoApproveSafe := true
  allowShell := false
  allowPatch := false
  allowOutsideWorkspace := false

/-- `turbo_action_kind_t`. -/
inductive ActionKind where
  | observe
  | mutate
  | dangerous
  deriving DecidableEq

/-- `turbo_action_tool_definition_t`, as far as the policy reads it. -/
structure ActionDefinition where
  kind : ActionKind
  requiresApproval : Bool
  deriving DecidableEq

/-- `turbo_agent_policy_decision_t`. -/
inductive Decision where
  | allow
  | requireApproval
  | deny
  deriving DecidableEq

/-! ## Paths -/

/-- `turbo_policy_is_path_separator`. -/
def isPathSeparator (ch : Char) : Bool :=
  ch == '/' || ch == '\\'

/-- `turbo_policy_normalize_path_char`. -/
def normalizePathChar (ch : Char) : Char :=
  if isPathSeparator ch then '/' else ch

/-- The scan from the end of the buffer back to the start of its last component, but
not below `rootLen`. -/
def componentStart (buffer : List Char) (rootLen : Nat) : Nat → Nat
  | 0 => 0
  | position + 1 =>
      if rootLen < position + 1 ∧ buffer[position]? ≠ some '/' then
        componentStart buffer rootLen position
      else position + 1

/-- `turbo_policy_last_component_is_parent`. -/
def lastComponentIsParent (buffer : List Char) (rootLen : Nat) : Bool :=
  if buffer.length ≤ rootLen then false
  else
    let start := componentStart buffer rootLen buffer.length
    buffer.length - start == 2 && buffer[start]? == some '.' &&
      buffer[start + 1]? == some '.'

/-- The buffer with a slash at its end, unless it is empty. -/
def separated (buffer : List Char) : List Char :=
  if 0 < buffer.length ∧ buffer[buffer.length - 1]? ≠ some '/' then buffer ++ ['/']
  else buffer

/-- The effect of a `..` component on the buffer. -/
def appendParent (absolute : Bool) (rootLen : Nat) (buffer : List Char) : List Char :=
  if rootLen < buffer.length ∧
      (absolute ∨ lastComponentIsParent buffer rootLen = false) then
    let stop := componentStart buffer rootLen buffer.length
    buffer.take (if rootLen < stop then stop - 1 else rootLen)
  else if absolute then buffer
  else separated buffer ++ ['.', '.']

def appendComponent (absolute : Bool) (rootLen : Nat) (buffer component : List Char) :
    List Char :=
  if component = ['.'] then buffer
  else if component = ['.', '.'] then appendParent absolute rootLen buffer
  else separated buffer ++ component.map normalizePathChar

/-- The loop over the components of a path.  `fuel` bounds their number; the length
of the path is enough. -/
def appendComponents (absolute : Bool) (rootLen : Nat) :
    Nat → List Char → List Char → List Char
  | 0, _, buffer => buffer
  | fuel + 1, path, buffer =>
      match path.dropWhile isPathSeparator with
      | [] => buffer
      | ch :: rest =>
          let component := (ch :: rest).takeWhile (!isPathSeparator ·)
          appendComponents absolute rootLen fuel
            ((ch :: rest).dropWhile (!isPathSeparator ·))
            (appendComponent absolute rootLen buffer component)

/-- The buffer without trailing slashes above `rootLen`. -/
def trimSlashes (buffer : List Char) (rootLen : Nat) : Nat → List Char
  | 0 => []
  | position + 1 =>
      if rootLen < position + 1 ∧ buffer[position]? = some '/' then
        trimSlashes buffer rootLen position
      else buffer.take (position + 1)

/-- `turbo_policy_normalize_path`. -/
def normalizePath (path : List Char) : List Char :=
  let absolute := path.head?.any isPathSeparator
  let buffer := if absolute then ['/'] else []
  let rootLen := buffer.length
  let buffer := appendComponents absolute rootLen path.length
    (if absolute then path.dropWhile isPathSeparator else path) buffer
  trimSlashes buffer rootLen buffer.length

/-- `turbo_agent_policy_validate_path`; `true` is the return value 0. -/
def validatePath (policy : Option AgentPolicy) (path : String) : Bool :=
  if path.toList = [] then false
  else
    match policy with
    | none => true
    | some policy =>
        match policy.workspaceRoot with
        | none => true
        | some root =>
            if policy.allowOutsideWorkspace then true
            else
              let normalizedRoot := normalizePath root.val.toList
              let normalizedPath := normalizePath path.toList
              let rootLen := normalizedRoot.length
              if rootLen = 0 then true
              else
                rootLen ≤ normalizedPath.length &&
                normalizedPath.take rootLen == normalizedRoot &&
                (normalizedPath[rootLen]? == none || normalizedPath[rootLen]? == some '/')

/-! ## Actions -/

inductive PathArgument where
  | path
  | workdir
  | rootDir
  | cwd
  deriving DecidableEq

def PathArgument.key : PathArgument → String
  | .path => "path"
  | .workdir => "workdir"
  | .rootDir => "root_dir"
  | .cwd => "cwd"

/-- A path argument of an action; only a string is one. -/
def pathArgument (args : Option Json) (argument : PathArgument) : Option String :=
  args.bind fun value => value.getString argument.key

/-- `turbo_policy_get_path_arg`. -/
def getPathArg (args : Option Json) : Option String :=
  match pathArgument args .path with
  | some path => some path
  | none =>
      match pathArgument args .workdir with
      | some workdir => some workdir
      | none =>
          match pathArgument args .rootDir with
          | some rootDir => some rootDir
          | none => pathArgument args .cwd

/-- `tolower` of the C locale. -/
def toLower (ch : Char) : Char :=
  if 'A' ≤ ch ∧ ch ≤ 'Z' then Char.ofNat (ch.toNat + 32) else ch

/-- `turbo_policy_ascii_contains_case_insensitive`. -/
def containsCaseInsensitive (text pattern : List Char) : Bool :=
  pattern.isEmpty ||
    (List.range text.length).any fun start =>
      (pattern.map toLower).isPrefixOf ((text.drop start).map toLower)

/-- Commands that are never run without approval. -/
def dangerousPatterns : List String :=
  ["rm -rf", "del /s", "format", "git reset --hard", "git clean -fd"]

/-- `turbo_agent_policy_is_dangerous_command`. -/
def isDangerousCommand (command : String) : Bool :=
  dangerousPatterns.any fun pattern =>
    containsCaseInsensitive command.toList pattern.toList

/-- `turbo_agent_policy_check_action`: the decision and its reason. -/
def checkAction (policy : Option AgentPolicy) (definition : Option ActionDefinition)
    (args : Option Json) : Decision × Option String :=
  let policy := policy.getD default
  match definition with
  | none => (.deny, some "missing_definition")
  | some definition =>
      if (getPathArg args).any fun path => !validatePath (some policy) path then
        (.deny, some "path_outside_workspace")
      else if definition.kind = .mutate ∧ !policy.allowPatch then
        (.deny, some "patch_disabled")
      else if definition.kind = .dangerous ∧ !policy.allowShell then
        (.deny, some "shell_disabled")
      else if (args.bind fun value => value.getString "command").any isDangerousCommand then
        (.requireApproval, some "dangerous_command")
      else if definition.requiresApproval then
        (.requireApproval, some "tool_requires_approval")
      else if policy.autoApproveSafe ∧ definition.kind = .observe then
        (.allow, none)
      else if definition.kind = .dangerous then
        (.requireApproval, some "dangerous_action")
      else (.allow, none)

end TurboAgent.Policy
