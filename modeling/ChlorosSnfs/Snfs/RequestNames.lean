import ChlorosSnfs.Snfs.ClientCalls
import ChlorosSnfs.Snfs.MessageBounds

/-!
# The names in requests

`lookup`, `snfs_create`, `snfs_mkdir` and `snfs_rename` zero a filename field of
256 bytes and then copy 255 bytes into it from where the name lies, whatever its
length.  What lies behind the NUL of a short name goes out with it.
-/

set_option autoImplicit false

namespace ChlorosSnfs.Snfs.RequestNames

open ChlorosSnfs.Library.LittleEndian
open ChlorosSnfs.Snfs.Fhandledb
open ChlorosSnfs.Snfs.Messages
open ChlorosSnfs.Snfs.Syscalls
open ChlorosSnfs.Snfs.Handlers
open ChlorosSnfs.Snfs.ServeLoop
open ChlorosSnfs.Snfs.HandlerEffects
open ChlorosSnfs.Snfs.Client
open ChlorosSnfs.Snfs.ClientCalls (sendRequest_eq_some serve_of_sendRequest)
open ChlorosSnfs.Snfs.ErrorReplies (noLeftover)
open ChlorosSnfs.Snfs.MessageBounds (mountedWith permissive)

variable {Fs : Type}

/-! ## The requests of a call -/

/-- The calls that send a name. -/
inductive NamedCall where
  | lookup (path : CString)
  | create (path : CString) (mode : UInt32)
  | mkdir (path : CString) (mode : UInt32)
  | rename (oldpath newpath : CString)

/-- A request with a filename field: its number in the call, the name, and what
stands before and behind the field. -/
structure NamedRequest where
  number : Nat
  before : Bytes
  name : CString
  behind : Bytes

def NamedRequest.message (following : Nat → Nat → UInt8) (request : NamedRequest) :
    Bytes :=
  request.before ++ filenameField request.name (following request.number) ++
    request.behind

def lookupRequest (number : Nat) (dir : Fhandle) (filename : CString) :
    NamedRequest :=
  ⟨number, typeBytes .lookup ++ handleBytes dir, filename, []⟩

def createRequest (path : CString) (mode : UInt32) : NamedRequest :=
  ⟨0, typeBytes .create, path, toBytes 4 mode.toNat⟩

def mkdirRequest (path : CString) (mode : UInt32) : NamedRequest :=
  ⟨0, typeBytes .mkdir, path, toBytes 4 mode.toNat⟩

def renameRequest (number : Nat) (fh : Fhandle) (newpath : CString) :
    NamedRequest :=
  ⟨number, typeBytes .rename ++ handleBytes fh, newpath, []⟩

theorem lookupRequest_message (following : Nat → Nat → UInt8) (number : Nat)
    (dir : Fhandle) (filename : CString) :
    (lookupRequest number dir filename).message following =
      lookupMessage dir filename (following number) :=
  List.append_nil _

theorem createRequest_message (following : Nat → Nat → UInt8) (path : CString)
    (mode : UInt32) :
    (createRequest path mode).message following =
      createMessage path (following 0) mode := rfl

theorem mkdirRequest_message (following : Nat → Nat → UInt8) (path : CString)
    (mode : UInt32) :
    (mkdirRequest path mode).message following =
      mkdirMessage path (following 0) mode := rfl

theorem renameRequest_message (following : Nat → Nat → UInt8) (number : Nat)
    (fh : Fhandle) (newpath : CString) :
    (renameRequest number fh newpath).message following =
      renameMessage fh newpath (following number) :=
  List.append_nil _

/-- Those of the loop of `lookup`. -/
def lookupRequests (link : Link Fs) : Nat → List CString → Fhandle → Server Fs →
    List NamedRequest
  | _, [], _, _ => []
  | number, filename :: rest, curHandle, server =>
    let message := lookupMessage curHandle filename (link.following number)
    lookupRequest number curHandle filename ::
      match sendRequest (link.env number) .lookup message server with
      | .ok (some (.lookup handle _), server) =>
        lookupRequests link (number + 1) rest handle server
      | _ => []

def pathRequests (link : Link Fs) (rootFhandle : Fhandle) (path : CString)
    (server : Server Fs) : List NamedRequest :=
  if path = rootPath then []
  else lookupRequests link 0 (tokens path) rootFhandle server

def requests (link : Link Fs) (rootFhandle : Fhandle) (server : Server Fs) :
    NamedCall → List NamedRequest
  | .lookup path => pathRequests link rootFhandle path server
  | .create path mode =>
    if path = rootPath then [] else [createRequest path mode]
  | .mkdir path mode =>
    if path = rootPath then [] else [mkdirRequest path (mode ||| sIfdir)]
  | .rename oldpath newpath =>
    pathRequests link rootFhandle oldpath server ++
      match lookup link rootFhandle oldpath 0 server with
      | .ok ((true, handle), _) =>
        [renameRequest (tokens oldpath).length handle newpath]
      | _ => []

/-! ## They are what the server is served -/

/-- The server handles these requests one after the other. -/
def serveAll (link : Link Fs) (server : Server Fs) :
    List NamedRequest → Except Stop (Server Fs)
  | [] => return server
  | request :: rest => do
    let message := request.message link.following
    let next ← serve (link.env request.number) message server
    serveAll link next rest

section Served

variable {link : Link Fs} {rootFhandle : Fhandle} {server after : Server Fs}

theorem serveAll_append {first second : List NamedRequest} {next : Server Fs}
    (served : serveAll link server first = .ok next) :
    serveAll link server (first ++ second) = serveAll link next second := by
  induction first generalizing server with
  | nil =>
      cases served
      rfl
  | cons request rest inductionHypothesis =>
      rw [serveAll, bind_eq_ok] at served
      obtain ⟨between, handled, served⟩ := served
      rw [List.cons_append, serveAll, handled, ok_bind]
      exact inductionHypothesis served

theorem serveAll_cons {request : NamedRequest} {rest : List NamedRequest}
    {type : MsgType} {reply : Option Reply} {next : Server Fs}
    (replied : sendRequest (link.env request.number) type
      (request.message link.following) server = .ok (reply, next)) :
    serveAll link server (request :: rest) = serveAll link next rest := by
  rw [serveAll, serve_of_sendRequest replied, ok_bind]

theorem serveAll_lookupRequests {number : Nat} {names : List CString}
    {curHandle : Fhandle} {found : Option Fhandle}
    (returned : lookupFrom link number names curHandle server = .ok (found, after)) :
    serveAll link server (lookupRequests link number names curHandle server) =
      .ok after := by
  induction names generalizing number curHandle server with
  | nil =>
      cases returned
      rfl
  | cons filename rest inductionHypothesis =>
      rw [lookupFrom, bind_eq_ok] at returned
      obtain ⟨⟨reply, next⟩, replied, returned⟩ := returned
      have sent := replied
      rw [← lookupRequest_message link.following number] at sent
      rw [lookupRequests, serveAll_cons sent, replied]
      split at returned
      · rename_i same
        cases same
        exact inductionHypothesis returned
      · rename_i notLookup same
        cases same
        cases returned
        split
        · rename_i handle attributes _ same
          cases same
          exact absurd rfl (notLookup handle attributes)
        · rfl

theorem lookup_serves {path : CString} {handle : Fhandle} {found : Bool × Fhandle}
    (returned : lookup link rootFhandle path handle server = .ok (found, after)) :
    serveAll link server (requests link rootFhandle server (.lookup path)) =
      .ok after := by
  rw [lookup] at returned
  rw [requests, pathRequests]
  split at returned
  · rename_i isRoot
    cases returned
    rw [if_pos isRoot]
    rfl
  · rename_i notRoot
    rw [bind_eq_ok] at returned
    obtain ⟨⟨reached, next⟩, walked, returned⟩ := returned
    rw [if_neg notRoot, serveAll_lookupRequests walked]
    split at returned
    · cases returned
      rename_i same
      cases same
      rfl
    · cases returned
      rename_i same
      cases same
      rfl

theorem snfsCreate_serves {path : CString} {mode : UInt32} {fh : Fhandle}
    {result : Int × Fhandle}
    (returned : snfsCreate link path mode fh server = .ok (result, after)) :
    serveAll link server (requests link rootFhandle server (.create path mode)) =
      .ok after := by
  rw [snfsCreate] at returned
  rw [requests]
  split at returned
  · rename_i isRoot
    cases returned
    rw [if_pos isRoot]
    rfl
  · rename_i notRoot
    rw [bind_eq_ok] at returned
    obtain ⟨⟨reply, next⟩, replied, returned⟩ := returned
    rw [← createRequest_message] at replied
    rw [if_neg notRoot, serveAll_cons replied]
    split at returned
    · rename_i same
      cases same
      cases returned
      rfl
    · rename_i same
      cases same
      cases returned
      rfl

theorem snfsMkdir_serves {path : CString} {mode : UInt32} {result : Int}
    (returned : snfsMkdir link path mode server = .ok (result, after)) :
    serveAll link server (requests link rootFhandle server (.mkdir path mode)) =
      .ok after := by
  rw [snfsMkdir] at returned
  rw [requests]
  split at returned
  · rename_i isRoot
    cases returned
    rw [if_pos isRoot]
    rfl
  · rename_i notRoot
    rw [bind_eq_ok] at returned
    obtain ⟨⟨reply, next⟩, replied, returned⟩ := returned
    rw [← mkdirRequest_message] at replied
    rw [if_neg notRoot, serveAll_cons replied]
    split at returned
    · rename_i same
      cases same
      cases returned
      rfl
    · rename_i same
      cases same
      cases returned
      rfl

theorem snfsRename_serves {oldpath newpath : CString} {result : Int}
    (returned : snfsRename link rootFhandle oldpath newpath server =
      .ok (result, after)) :
    serveAll link server
        (requests link rootFhandle server (.rename oldpath newpath)) =
      .ok after := by
  rw [snfsRename, bind_eq_ok] at returned
  obtain ⟨⟨⟨found, handle⟩, next⟩, looked, returned⟩ := returned
  have served := lookup_serves looked
  rw [requests] at served
  rw [requests, serveAll_append served, looked]
  cases found with
  | false =>
      cases returned
      rfl
  | true =>
      change (sendRequest _ _ _ _ >>= _) = _ at returned
      rw [bind_eq_ok] at returned
      obtain ⟨⟨reply, last⟩, replied, returned⟩ := returned
      rw [← renameRequest_message] at replied
      rw [serveAll_cons replied]
      cases reply with
      | none =>
          cases returned
          rfl
      | some _ =>
          cases returned
          rfl

end Served

/-! ## The names that are sent -/

/-- The handle a LOOKUP is answered with. -/
def foundBy (handled : Except Stop (Server Fs)) : Option (Fhandle × Server Fs) :=
  match handled with
  | .error _ => none
  | .ok next =>
    match next.sent with
    | (.lookup handle _, _) :: _ => some (handle, next)
    | _ => none

/-- The components the server is asked for, up to the first it does not find, and
whether it finds them all. -/
def asked (env : Nat → Env Fs) : Nat → List CString → Fhandle → Server Fs →
    List CString × Bool
  | _, [], _, _ => ([], true)
  | number, filename :: rest, dir, server =>
    match foundBy (handleLookup (env number) ⟨.ok dir, .ok (CString.sent filename)⟩
        server) with
    | none => ([filename], false)
    | some (handle, next) =>
      let (names, found) := asked env (number + 1) rest handle next
      (filename :: names, found)

/-- The root itself is not looked up. -/
def askedFor (env : Nat → Env Fs) (rootFhandle : Fhandle) (path : CString)
    (server : Server Fs) : List CString × Bool :=
  if path = rootPath then ([], true) else asked env 0 (tokens path) rootFhandle server

def namesSent (env : Nat → Env Fs) (rootFhandle : Fhandle) (server : Server Fs) :
    NamedCall → List CString
  | .lookup path => (askedFor env rootFhandle path server).1
  | .create path _ => if path = rootPath then [] else [path]
  | .mkdir path _ => if path = rootPath then [] else [path]
  | .rename oldpath newpath =>
    let (names, found) := askedFor env rootFhandle oldpath server
    names ++ if found then [newpath] else []

section Names

variable {link : Link Fs} {server next : Server Fs} {number : Nat}
  {dir handle : Fhandle} {filename : CString}

theorem foundBy_eq_some {handled : Except Stop (Server Fs)} :
    foundBy handled = some (handle, next) ↔ handled = .ok next ∧
      ∃ attributes size rest, next.sent = (.lookup handle attributes, size) :: rest := by
  cases handled with
  | error stop => simp [foundBy]
  | ok after =>
      rw [foundBy.eq_def]
      dsimp only
      split
      · rename_i handle attributes size rest sent
        constructor
        · intro found
          cases found
          exact ⟨rfl, attributes, size, rest, sent⟩
        · rintro ⟨same, _, _, _, last⟩
          cases same
          rw [sent] at last
          cases last
          rfl
      · rename_i notLookup
        constructor
        · intro found
          cases found
        · rintro ⟨same, attributes, size, rest, last⟩
          cases same
          exact absurd last (notLookup _ _ _ _)

theorem sendRequest_of_found {env : Env Fs} (following : Nat → UInt8)
    (found : foundBy (handleLookup env ⟨.ok dir, .ok (CString.sent filename)⟩
      server) = some (handle, next)) :
    ∃ attributes, sendRequest env .lookup (lookupMessage dir filename following)
      server = .ok (some (.lookup handle attributes), next) := by
  obtain ⟨handled, attributes, size, rest, last⟩ := foundBy_eq_some.mp found
  refine ⟨attributes, ?_⟩
  rw [sendRequest, serve_lookupMessage, handled, ok_bind, last]
  rfl

theorem found_of_sendRequest {env : Env Fs} {following : Nat → UInt8}
    {attributes : Fattr}
    (sent : sendRequest env .lookup (lookupMessage dir filename following) server =
      .ok (some (.lookup handle attributes), next)) :
    foundBy (handleLookup env ⟨.ok dir, .ok (CString.sent filename)⟩ server) =
      some (handle, next) := by
  obtain ⟨handled, ⟨size, rest, last⟩, _⟩ := sendRequest_eq_some sent
  rw [serve_lookupMessage] at handled
  exact foundBy_eq_some.mpr ⟨handled, attributes, size, rest, last⟩

theorem asked_of_found {env : Nat → Env Fs} {rest : List CString}
    (found : foundBy (handleLookup (env number) ⟨.ok dir, .ok (CString.sent filename)⟩
      server) = some (handle, next)) :
    asked env number (filename :: rest) dir server =
      (filename :: (asked env (number + 1) rest handle next).1,
        (asked env (number + 1) rest handle next).2) := by
  rw [asked, found]

theorem asked_of_not_found {env : Nat → Env Fs} {rest : List CString}
    (missing : foundBy (handleLookup (env number) ⟨.ok dir, .ok (CString.sent filename)⟩
      server) = none) :
    asked env number (filename :: rest) dir server = ([filename], false) := by
  rw [asked, missing]

theorem lookupRequests_names {names : List CString} :
    (lookupRequests link number names dir server).map NamedRequest.name =
      (asked link.env number names dir server).1 := by
  induction names generalizing number dir server with
  | nil => rfl
  | cons filename rest inductionHypothesis =>
      rw [lookupRequests]
      cases answer : foundBy (handleLookup (link.env number)
          ⟨.ok dir, .ok (CString.sent filename)⟩ server) with
      | none =>
          rw [asked_of_not_found answer]
          split
          · rename_i sent
            rw [found_of_sendRequest sent] at answer
            cases answer
          · rfl
      | some found =>
          obtain ⟨handle, next⟩ := found
          obtain ⟨attributes, sent⟩ :=
            sendRequest_of_found (link.following number) answer
          rw [asked_of_found answer, sent]
          exact congrArg (filename :: ·) inductionHypothesis

theorem lookupFrom_found_iff {names : List CString} :
    (asked link.env number names dir server).2 = true ↔
      ∃ handle after, lookupFrom link number names dir server =
        .ok (some handle, after) := by
  induction names generalizing number dir server with
  | nil => exact ⟨fun _ => ⟨dir, server, rfl⟩, fun _ => rfl⟩
  | cons filename rest inductionHypothesis =>
      cases answer : foundBy (handleLookup (link.env number)
          ⟨.ok dir, .ok (CString.sent filename)⟩ server) with
      | none =>
          rw [asked_of_not_found answer]
          refine ⟨fun found => absurd found Bool.false_ne_true, ?_⟩
          rintro ⟨handle, after, returned⟩
          rw [lookupFrom, bind_eq_ok] at returned
          obtain ⟨⟨reply, next⟩, sent, returned⟩ := returned
          split at returned
          · rename_i same
            cases same
            rw [found_of_sendRequest sent] at answer
            cases answer
          · cases returned
      | some found =>
          obtain ⟨handle, next⟩ := found
          obtain ⟨attributes, sent⟩ :=
            sendRequest_of_found (link.following number) answer
          rw [asked_of_found answer, lookupFrom, sent, ok_bind]
          exact inductionHypothesis

theorem pathRequests_names {rootFhandle : Fhandle} {path : CString} :
    (pathRequests link rootFhandle path server).map NamedRequest.name =
      (askedFor link.env rootFhandle path server).1 := by
  rw [pathRequests, askedFor]
  split
  · rfl
  · exact lookupRequests_names

theorem lookup_found_iff {rootFhandle : Fhandle} {path : CString} :
    (askedFor link.env rootFhandle path server).2 = true ↔
      ∃ handle after, lookup link rootFhandle path 0 server =
        .ok ((true, handle), after) := by
  rw [askedFor, lookup]
  split
  · exact ⟨fun _ => ⟨rootFhandle, server, rfl⟩, fun _ => rfl⟩
  · rw [lookupFrom_found_iff]
    constructor
    · rintro ⟨handle, after, walked⟩
      rw [walked]
      exact ⟨handle, after, rfl⟩
    · rintro ⟨handle, after, returned⟩
      rw [bind_eq_ok] at returned
      obtain ⟨⟨reached, next⟩, walked, returned⟩ := returned
      cases reached with
      | none => cases returned
      | some reached => exact ⟨reached, next, walked⟩

/-- Only what the server answers decides which names are sent. -/
theorem requests_names (rootFhandle : Fhandle) (call : NamedCall) :
    (requests link rootFhandle server call).map NamedRequest.name =
      namesSent link.env rootFhandle server call := by
  cases call with
  | lookup path => exact pathRequests_names
  | create path mode =>
      rw [requests, namesSent]
      split <;> rfl
  | mkdir path mode =>
      rw [requests, namesSent]
      split <;> rfl
  | rename oldpath newpath =>
      rw [requests, namesSent, List.map_append, pathRequests_names]
      dsimp only
      apply congrArg
      split
      · rename_i looked
        rw [if_pos (lookup_found_iff.mpr ⟨_, _, looked⟩)]
        rfl
      · rename_i notFound
        rw [if_neg]
        · rfl
        · intro found
          obtain ⟨handle, after, looked⟩ := lookup_found_iff.mp found
          exact notFound handle after looked

end Names

/-! ## Two runs -/

/-- The name, followed by zeros. -/
def padded (name : CString) : Bytes :=
  let field := name.bytes.take snfsMaxFilenameLength
  field ++ List.replicate (snfsMaxFilenameBuf - field.length) 0

/-- What a call sends, by the bytes behind its names. -/
def wire (kernel : Kernel Fs) (leftover : Nat → Leftover) (rootFhandle : Fhandle)
    (server : Server Fs) (call : NamedCall) (following : Nat → Nat → UInt8) :
    List Bytes :=
  (requests ⟨kernel, leftover, following⟩ rootFhandle server call).map
    (NamedRequest.message following)

/-- No byte of a request depends on what lies behind its name, and the filename
field holds nothing but the name. -/
structure Discreet (kernel : Kernel Fs) (leftover : Nat → Leftover)
    (rootFhandle : Fhandle) (server : Server Fs) (call : NamedCall) : Prop where
  alike : ∀ first second,
    wire kernel leftover rootFhandle server call first =
      wire kernel leftover rootFhandle server call second
  named : ∀ following,
    ∀ request ∈ requests ⟨kernel, leftover, following⟩ rootFhandle server call,
      request.message following =
        request.before ++ padded request.name ++ request.behind

theorem filenameField_eq_padded {name : CString} (following : Nat → UInt8)
    (long : snfsMaxFilenameLength ≤ name.bytes.length + 1) :
    filenameField name following = padded name := by
  have noMore : snfsMaxFilenameLength - name.key.length = 0 := by
    rw [key_length]
    omega
  rw [filenameField, copyBytes_eq, noMore, List.range_zero, List.map_nil,
    List.append_nil, padded]
  have sizes : snfsMaxFilenameBuf = snfsMaxFilenameLength + 1 := rfl
  rcases Nat.lt_or_ge name.bytes.length snfsMaxFilenameLength with shorter | longer
  · have exactly : name.key.length = snfsMaxFilenameLength := by
      rw [key_length]
      omega
    have two : snfsMaxFilenameBuf - name.bytes.length = 2 := by omega
    rw [List.take_of_length_le exactly.le, List.take_of_length_le shorter.le, two,
      CString.key, List.append_assoc]
    rfl
  · have one : snfsMaxFilenameBuf - (name.bytes.take snfsMaxFilenameLength).length =
        1 := by
      rw [List.length_take]
      omega
    rw [CString.key, List.take_append_of_le_length longer, one]
    rfl

theorem filenameField_ne_of_short {name : CString} {first second : Nat → UInt8}
    (short : name.bytes.length + 1 < snfsMaxFilenameLength)
    (differ : first 0 ≠ second 0) :
    filenameField name first ≠ filenameField name second := by
  intro same
  rw [filenameField, filenameField, List.append_cancel_right_eq,
    copyBytes_eq_iff] at same
  apply differ
  apply same
  rw [key_length]
  omega

section Runs

variable {kernel : Kernel Fs} {leftover : Nat → Leftover} {rootFhandle : Fhandle}
  {server : Server Fs}

/-- The server reads a name up to its NUL. -/
theorem sendRequest_alike (env : Env Fs) (dir : Fhandle) (filename : CString)
    (first second : Nat → UInt8) (server : Server Fs) :
    sendRequest env .lookup (lookupMessage dir filename first) server =
      sendRequest env .lookup (lookupMessage dir filename second) server := by
  rw [sendRequest, sendRequest, serve_lookupMessage, serve_lookupMessage]

theorem lookupFrom_alike {number : Nat} {names : List CString} {dir : Fhandle}
    (first second : Nat → Nat → UInt8) :
    lookupFrom ⟨kernel, leftover, first⟩ number names dir server =
      lookupFrom ⟨kernel, leftover, second⟩ number names dir server := by
  induction names generalizing number dir server with
  | nil => rfl
  | cons filename rest inductionHypothesis =>
      rw [lookupFrom, lookupFrom,
        sendRequest_alike _ dir filename (first number) (second number)]
      apply congrArg
      funext replied
      split
      · exact inductionHypothesis
      · rfl

theorem lookupRequests_alike {number : Nat} {names : List CString} {dir : Fhandle}
    (first second : Nat → Nat → UInt8) :
    lookupRequests ⟨kernel, leftover, first⟩ number names dir server =
      lookupRequests ⟨kernel, leftover, second⟩ number names dir server := by
  induction names generalizing number dir server with
  | nil => rfl
  | cons filename rest inductionHypothesis =>
      have same := sendRequest_alike ⟨kernel, leftover number⟩ dir filename
        (first number) (second number) server
      rw [lookupRequests, lookupRequests]
      simp only [Link.env, same]
      apply congrArg
      split
      · exact inductionHypothesis
      · rfl

theorem requests_alike (call : NamedCall) (first second : Nat → Nat → UInt8) :
    requests ⟨kernel, leftover, first⟩ rootFhandle server call =
      requests ⟨kernel, leftover, second⟩ rootFhandle server call := by
  have paths (path : CString) :
      pathRequests ⟨kernel, leftover, first⟩ rootFhandle path server =
        pathRequests ⟨kernel, leftover, second⟩ rootFhandle path server := by
    rw [pathRequests, pathRequests, lookupRequests_alike first second]
  cases call with
  | lookup path => exact paths path
  | create path mode => rfl
  | mkdir path mode => rfl
  | rename oldpath newpath =>
      rw [requests, requests, paths, lookup, lookup, lookupFrom_alike first second]

theorem NamedRequest.message_of_long {request : NamedRequest}
    (following : Nat → Nat → UInt8)
    (long : snfsMaxFilenameLength ≤ request.name.bytes.length + 1) :
    request.message following =
      request.before ++ padded request.name ++ request.behind := by
  rw [message, filenameField_eq_padded _ long]

theorem NamedRequest.message_ne_of_short {request : NamedRequest}
    (short : request.name.bytes.length + 1 < snfsMaxFilenameLength) :
    request.message (fun _ _ => 0) ≠ request.message fun _ _ => 1 := by
  intro same
  rw [message, message, List.append_cancel_right_eq, List.append_cancel_left_eq] at same
  exact filenameField_ne_of_short short (by decide) same

/-- A call keeps the memory behind its names to itself exactly when all the names
it sends have at least 254 bytes. -/
theorem discreet_iff (kernel : Kernel Fs) (leftover : Nat → Leftover)
    (rootFhandle : Fhandle) (server : Server Fs) (call : NamedCall) :
    Discreet kernel leftover rootFhandle server call ↔
      ∀ name ∈ namesSent (fun number => ⟨kernel, leftover number⟩) rootFhandle server
        call, 254 ≤ name.bytes.length := by
  have names (following : Nat → Nat → UInt8) :
      (requests ⟨kernel, leftover, following⟩ rootFhandle server call).map
        NamedRequest.name = namesSent (fun number => ⟨kernel, leftover number⟩)
          rootFhandle server call := requests_names rootFhandle call
  constructor
  · intro discreet name sent
    rw [← names fun _ _ => 0] at sent
    obtain ⟨request, member, rfl⟩ := List.mem_map.mp sent
    have same := discreet.alike (fun _ _ => 0) fun _ _ => 1
    rw [wire, wire, requests_alike call (fun _ _ => 1) fun _ _ => 0,
      List.map_inj_left] at same
    by_contra short
    have limit : snfsMaxFilenameLength = 255 := rfl
    exact NamedRequest.message_ne_of_short (by omega) (same request member)
  · intro long
    have named (following : Nat → Nat → UInt8) (request : NamedRequest)
        (member : request ∈
          requests ⟨kernel, leftover, following⟩ rootFhandle server call)
        (other : Nat → Nat → UInt8) :
        request.message other =
          request.before ++ padded request.name ++ request.behind := by
      apply NamedRequest.message_of_long
      have enough : 254 ≤ request.name.bytes.length := by
        apply long
        rw [← names following]
        exact List.mem_map_of_mem member
      exact Nat.succ_le_succ enough
    refine ⟨?_, fun following request member => named following request member _⟩
    intro first second
    rw [wire, wire, requests_alike call first second]
    apply List.map_congr_left
    intro request member
    rw [named second request member first, named second request member second]

end Runs

theorem pathSlashA_noNul : (0 : UInt8) ∉ ([47, 97] : Bytes) := by decide

/-- `/a`. -/
def pathSlashA : CString := ⟨[47, 97], pathSlashA_noNul⟩

/-- Creating `/a` sends 252 bytes from behind it. -/
theorem create_discloses_memory :
    ¬ Discreet permissive (fun _ => noLeftover) 5 (mountedWith 5)
      (.create pathSlashA 0x1A4) := by
  intro discreet
  have notRoot : pathSlashA ≠ rootPath := by decide
  have same := discreet.alike (fun _ _ => 0) fun _ _ => 1
  rw [wire, wire, requests, requests, if_neg notRoot, List.map_singleton,
    List.map_singleton, List.cons.injEq] at same
  exact NamedRequest.message_ne_of_short (by decide) same.1

end ChlorosSnfs.Snfs.RequestNames
