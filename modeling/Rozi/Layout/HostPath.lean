import Rozi.Layout.Profile
import Rozi.Library.LexicalPath

/-!
Profiles for a worktree. A session host's directories are compared as text, by the rules of the
host's own paths, and moved from the checkout that contains them into the worktree.
-/

namespace Rozi

open LexicalPath

structure HostPath where
  /-- `/`, a drive such as `C:`, or a UNC share such as `\\server\share`. -/
  root : List Char
  parts : List (List Char)
  windows : Bool
  deriving DecidableEq, Repr

namespace HostPath

def windowsSeparator (c : Char) : Bool := c == '/' || c == '\\'

def unixSeparator (c : Char) : Bool := c == '/'

/-- The characters that separate names on a host. -/
def separatorOf (windows : Bool) : Char → Bool :=
  if windows then windowsSeparator else unixSeparator

/-- The text before the first separator, and the text after it where there is one. -/
def splitOnce (text : List Char) : List Char × Option (List Char) :=
  (text.takeWhile fun c => !windowsSeparator c,
    match text.dropWhile fun c => !windowsSeparator c with
    | [] => none
    | _ :: rest => some rest)

def parseShare (text : List Char) : Option (List Char × List Char × Bool) :=
  let server := splitOnce text
  if server.1 = [] then none
  else
    server.2.bind fun rest =>
      let share := splitOnce rest
      if share.1 = [] then none
      else some ('\\' :: '\\' :: server.1 ++ '\\' :: share.1, share.2.getD [], true)

def parseRoot : List Char → Option (List Char × List Char × Bool)
  | [] => none
  | [first] => if first = '/' then some (['/'], [first], false) else none
  | first :: second :: rest =>
      if windowsSeparator first && windowsSeparator second then parseShare rest
      else if first.isAlpha && second == ':' then
        match rest with
        | [] => some ([first, second], [], true)
        | third :: _ =>
            if windowsSeparator third then some ([first, second], rest, true) else none
      else if first = '/' then some (['/'], first :: second :: rest, false)
      else none

def parse (path : List Char) : Option HostPath := do
  let (root, rest, windows) ← parseRoot path
  let parts ← walk (separatorOf windows) [] rest
  return { root, parts, windows }

def same (ignoreCase : Bool) (a b : List Char) : Bool :=
  if ignoreCase then a.map Char.toLower == b.map Char.toLower else a == b

def below (path ancestor : HostPath) : Option (List (List Char)) :=
  let same := same (path.windows || ancestor.windows)
  if same path.root ancestor.root && decide (ancestor.parts.length ≤ path.parts.length) &&
      (ancestor.parts.zip path.parts).all fun pair => same pair.1 pair.2 then
    some (path.parts.drop ancestor.parts.length)
  else none

end HostPath

open HostPath

/-- `Iterator::max_by_key`: of several that are deepest, the last. -/
def deepest {α : Type} : List (Nat × α) → Option (Nat × α)
  | [] => none
  | first :: rest =>
      some (rest.foldl (fun best next => if best.1 ≤ next.1 then next else best) first)

/-- The components of `cwd` below the innermost checkout containing it. -/
def innermostCheckoutRest (cwd : List Char) (checkouts : List (List Char)) :
    Option (List (List Char)) := do
  let cwd ← parse cwd
  let found := ((checkouts.filterMap parse).filter (!·.parts.isEmpty)).filterMap fun checkout =>
    (cwd.below checkout).map (checkout.parts.length, ·)
  (deepest found).map Prod.snd

def pushPart (separator : Char) (rebased part : List Char) : List Char :=
  (if rebased.getLast? = some separator then rebased else rebased ++ [separator]) ++ part

/-- `cwd` moved from the innermost checkout containing it into `target`. -/
def rebaseHostPath (cwd : List Char) (checkouts : List (List Char)) (target : List Char) :
    Option (List Char) := do
  let rest ← innermostCheckoutRest cwd checkouts
  let separator := if target.contains '\\' && !target.contains '/' then '\\' else '/'
  let trimmed := target.rdropWhile windowsSeparator
  let rebased := if trimmed = [] then [separator] else trimmed
  return rest.foldl (pushPart separator) rebased

structure LoadedProfile where
  name : String
  path : String
  profile : Profile
  deriving DecidableEq, Repr

structure WorktreeConfig extends ProfileConfig where
  /-- `worktrees.profile`. -/
  worktreeProfile : Option String
  /-- `config::profile_path_for_name`. -/
  profilePathForName : String → String
  loadProfile : String → Except String Profile

/-- The first pane directory of a profile that no checkout contains, as the pane would get it. -/
def firstDirectoryOutside (expandPath : String → String) (profile : Profile)
    (checkouts : List (List Char)) : Option String :=
  (((profile.workspaces.flatMap WorkspaceProfile.panes).filterMap PaneProfile.cwd).map
    expandPath).find? fun cwd => (innermostCheckoutRest cwd.toList checkouts).isNone

def loadWorktreeProfile (config : WorktreeConfig) (checkouts : List (List Char)) (remote : Bool) :
    Except String (Option LoadedProfile) :=
  match config.worktreeProfile with
  | none => .ok none
  | some name =>
      let path := config.profilePathForName name
      match config.loadProfile path with
      | .error err => .error s!"Worktree profile `{name}` failed to load: {err}"
      | .ok profile =>
          match remote, firstDirectoryOutside config.expandPath profile checkouts with
          | true, some outside =>
              .error (s!"Worktree profile `{name}` skipped: {outside} is outside the repository, " ++
                "and this session runs on another host")
          | _, _ => .ok (some { name, path, profile })

/-- Where a pane starts once its directory is rebased. -/
def rebasedCwd (checkouts : List (List Char)) (target : String) : Option String → String
  | none => target
  | some cwd =>
      ((rebaseHostPath cwd.toList checkouts target.toList).map String.ofList).getD cwd

def Pane.rebased (checkouts : List (List Char)) (target : String) (pane : Pane) : Pane :=
  { pane with identity :=
      { pane.identity with cwd := some (rebasedCwd checkouts target pane.identity.cwd) } }

/-- Point a seeded attachment's panes at the checkout `target`. -/
def rebaseOntoWorktree (attachment : Attachment) (checkouts : List (List Char)) (target : String) :
    Attachment :=
  { attachment with workspaces := attachment.workspaces.map fun workspace =>
      { workspace with panes := workspace.panes.map (Pane.rebased checkouts target) } }

def initialRect : FloatRect where
  x := .finite 4
  y := .finite 3
  w := .finite 80
  h := .finite 24

def freshDefaultAttachment (config : ProfileConfig) : Attachment :=
  let pane : Pane :=
    { id := 1, ptyGeneration := 0, floatingRect := initialRect, identity := { cwd := config.cwd } }
  { workspaces := (freshWorkspaces config).modify 0 fun workspace =>
      { appendTiledWindows { workspace with panes := workspace.panes ++ [pane] } [1] with
        focusedPane := some 1 }
    focusedPane := some 1
    nextPaneId := 2 }

/-- The attachment and the recipe a new session for the checkout at `path` starts from. -/
def worktreeSessionSeed (config : ProfileConfig) (path : String) (checkouts : List (List Char))
    (profile : Option LoadedProfile) : Attachment × Option (String × String) :=
  match profile.bind fun loaded =>
      (attachmentFromProfile config loaded.profile).map (·, loaded.name, loaded.path) with
  | some (attachment, seeded) => (rebaseOntoWorktree attachment checkouts path, some seeded)
  | none =>
      let attachment := freshDefaultAttachment config
      ({ attachment with workspaces := attachment.workspaces.modify 0 fun workspace =>
          { workspace with panes := workspace.panes.modify 0 fun pane =>
              { pane with identity := { pane.identity with cwd := some path } } } }, none)

end Rozi
