import AgentCockpit.Callback.ForwardedRequest
import AgentCockpit.Core.Joined

/-!
# The open command

The command line tool makes its argument absolute and clean, resolves the links of the parent
directory, and sends both paths in a request: straight to the app's own listener, or to the helper,
which validates it and forwards a request that it builds anew. The app reads the paths and opens
what they name.

Paths are strings of bytes, of any bytes that a file name may have. What the tool is told by the
system is a parameter.
-/

namespace AgentCockpit.Callback

open AgentCockpit.Core

/-! ### Paths -/

def separator : UInt8 := 0x2F

/-- The names `.` and `..`. -/
def dot : GoString := [0x2E]

def dotDot : GoString := [0x2E, 0x2E]

def isAbs (path : GoString) : Bool := path.head? == some separator

/-- Put an element behind those of a clean path, of which the last one comes first. -/
def pushElement (rooted : Bool) (elements : List GoString) (element : GoString) :
    List GoString :=
  if element = [] ∨ element = dot then elements
  else if element = dotDot then
    match elements with
    | [] => if rooted then [] else [dotDot]
    | last :: elements => if last = dotDot then dotDot :: last :: elements else elements
  else element :: elements

/-- The shortest path that is the same lexically. -/
def clean (path : GoString) : GoString :=
  let elements := ((path.splitOn separator).foldl (pushElement (isAbs path)) []).reverse
  if isAbs path then separator :: join separator elements
  else if elements = [] then dot
  else join separator elements

/-- Two paths joined. An empty one does not count. -/
def joinPath (parent name : GoString) : GoString :=
  if parent ≠ [] then clean (parent ++ separator :: name)
  else if name ≠ [] then clean name
  else []

/-- All but the last element. -/
def dir (path : GoString) : GoString :=
  clean (path.reverse.dropWhile (· ≠ separator)).reverse

/-- The last element. -/
def base (path : GoString) : GoString :=
  if path = [] then dot
  else
    let trimmed := path.reverse.dropWhile (· = separator)
    if trimmed = [] then [separator] else (trimmed.takeWhile (· ≠ separator)).reverse

/-! ### The tool -/

/-- What the tool touches of the outside world. -/
structure CockpitEnv where
  getenv : String → GoString
  getwd : Option GoString
  evalSymlinks : GoString → Option GoString

inductive ExitCode
  | ok | other | usage | notConnected | rejected
  deriving DecidableEq, Repr

/-- The one path among the arguments. An option is refused, and `--` ends options. -/
def parseOpenCommandArgsFrom : List GoString → Option GoString → Bool → Option GoString
  | [], path, _ => if path = some [] then none else path
  | arg :: args, path, endOfOptions =>
    if ¬ endOfOptions ∧ arg = [0x2D, 0x2D] then parseOpenCommandArgsFrom args path true
    else if ¬ endOfOptions ∧ arg.head? = some 0x2D ∧ arg ≠ [0x2D] then none
    else if path.isSome then none
    else parseOpenCommandArgsFrom args (some arg) endOfOptions

def parseOpenCommandArgs (args : List GoString) : Option GoString :=
  parseOpenCommandArgsFrom args none false

/-- The pane of a terminal. The app's own key goes first. -/
def paneFromEnv (getenv : String → GoString) : Option (CallbackPane GoString) :=
  if Helper.isPaneID (getenv "COCKPIT_CALLBACK_MUX_KEY") then
    some ⟨Word.mux.bytes, getenv "COCKPIT_CALLBACK_MUX_KEY"⟩
  else if Helper.isPaneID (getenv "TMUX_PANE") then
    some ⟨Word.tmux.bytes, getenv "TMUX_PANE"⟩
  else none

namespace CockpitEnv

variable (env : CockpitEnv)

def absolutePath (arg : GoString) : Option GoString :=
  if isAbs arg then some (clean arg)
  else env.getwd.map fun wd => clean (joinPath wd arg)

def canonicalPath (abs : GoString) : Option GoString :=
  (env.evalSymlinks (dir abs)).map fun parent => joinPath parent (base abs)

def openRequest (abs : GoString) : Helper.CallbackRequest where
  v := callbackProtocolVersion
  id := 1
  op := Word.open.bytes
  pane := paneFromEnv env.getenv
  args := ⟨abs, (env.canonicalPath abs).getD []⟩

/-- The request that the tool sends, or the exit code. -/
def runOpen (args : List GoString) : Except ExitCode Helper.CallbackRequest :=
  match parseOpenCommandArgs args with
  | none => .error .usage
  | some path =>
    if ¬ isAbs (env.getenv "COCKPIT_CALLBACK_SOCK") then .error .notConnected
    else match env.absolutePath path with
      | none => .error .other
      | some abs => .ok (env.openRequest abs)

end CockpitEnv

/-! ### The app -/

/-- What the app does with a request: it refuses it, or opens the paths. -/
inductive Decision
  | refused (id : ℚ) (code message : String)
  | dispatched (id : ℚ) (pane : Option (CallbackPane JsString)) (args : Shared.OpenArgs)

/-- Decide a request. `tryTake` is what the rate limiter says if it is asked. -/
def handle (tryTake connected : Bool) (raw : JsValue) : Decision :=
  match Shared.parseCallbackEnvelope raw with
  | .refused id message => .refused id "bad-request" message
  | .accepted id op pane args =>
    if ¬ Shared.isCallbackOp op then .refused id "unsupported-op" "unsupported operation"
    else if ¬ tryTake then .refused id "rate-limited" "too many requests"
    else if ¬ connected then .refused id "not-connected" "project is not connected"
    else match Shared.parseOpenArgs args with
      | .error message => .refused id "bad-request" message
      | .ok args => .dispatched id pane args

def Decision.args : Decision → Option Shared.OpenArgs
  | refused _ _ _ => none
  | dispatched _ _ args => some args

inductive Route
  | local | helper
  deriving DecidableEq, Repr

/-- What the limiters and the project's status say. -/
structure Circumstances where
  helperTakes : Bool
  mainTakes : Bool
  connected : Bool

/-- The arguments that reach the app, if the request is accepted. -/
def receive (circumstances : Circumstances) (request : Helper.CallbackRequest) :
    Route → Option Shared.OpenArgs
  | .local =>
    (handle circumstances.mainTakes circumstances.connected (jsonParse request.document)).args
  | .helper =>
    match Helper.handleRequest circumstances.helperTakes request.document with
    | .reply _ _ _ => none
    | .forward _ forwarded =>
      (handle circumstances.mainTakes circumstances.connected
        (jsonParse forwarded.document)).args

end AgentCockpit.Callback
