import H2pp.Hpack.HeaderField
import H2pp.Http2.Frame
import H2pp.Lib.Outcome

/-! # Requests and responses

`method.cpp`, `request.cpp` and `response.cpp`. A request is a list of header fields
and a list of body slices, which the stream takes from the front as it sends them.
The total size of the body is counted when slices are added, and only then.
-/

namespace H2pp.Http2

open Utils Hpack

/-- `method`. -/
inductive Method
  | acl | baselineControl | bind | checkin | checkout | connect | copy | delete | get | head
  | label | link | lock | merge | mkactivity | mkcalendar | mkcol | mkredirectref | mkworkspace
  | move | options | orderpatch | patch | post | pri | propfind | proppatch | put | rebind
  | report | search | trace | unbind | uncheckout | unlink | unlock | update
  | updateredirectref | versionControl
  deriving DecidableEq, Repr

/-- `to_string(cmd)`. -/
def Method.toString : Method → String
  | acl => "ACL" | baselineControl => "BASELINE_CONTROL" | bind => "BIND"
  | checkin => "CHECKIN" | checkout => "CHECKOUT" | connect => "CONNECT" | copy => "COPY"
  | delete => "DELETE" | get => "GET" | head => "HEAD" | label => "LABEL" | link => "LINK"
  | lock => "LOCK" | merge => "MERGE" | mkactivity => "MKACTIVITY" | mkcalendar => "MKCALENDAR"
  | mkcol => "MKCOL" | mkredirectref => "MKREDIRECTREF" | mkworkspace => "MKWORKSPACE"
  | move => "MOVE" | options => "OPTIONS" | orderpatch => "ORDERPATCH" | patch => "PATCH"
  | post => "POST" | pri => "PRI" | propfind => "PROPFIND" | proppatch => "PROPPATCH"
  | put => "PUT" | rebind => "REBIND" | report => "REPORT" | search => "SEARCH"
  | trace => "TRACE" | unbind => "UNBIND" | uncheckout => "UNCHECKOUT" | unlink => "UNLINK"
  | unlock => "UNLOCK" | update => "UPDATE" | updateredirectref => "UPDATEREDIRECTREF"
  | versionControl => "VERSION_CONTROL"

/-- The parts of a `boost::url_view` that a request is made of. -/
structure Url where
  scheme : Bytes
  authority : Bytes
  path : Bytes
  encodedAuthority : Bytes
  encodedResource : Bytes

/-- `request`. The spans of `span_list` are views of the slices in `body_list`, in the
same order, so one list stands for both. -/
structure Request where
  headerList : List HeaderField
  bodyList : List Bytes
  size : Nat
  deriving DecidableEq, Repr

namespace Request

/-- `header(hf)`. -/
def header (request : Request) (field : HeaderField) : Request :=
  { request with headerList := request.headerList ++ [field] }

/-- `headers(list)`. -/
def headers (request : Request) (fields : List HeaderField) : Request :=
  { request with headerList := request.headerList ++ fields }

/-- `body(v)`, for a vector or a string. -/
def body (request : Request) (slice : Bytes) : Request :=
  { request with
    bodyList := request.bodyList ++ [slice]
    size := request.size + slice.length }

/-- `bodies(begin, end)`. -/
def bodies (request : Request) (slices : List Bytes) : Request := slices.foldl body request

/-- `generic_url(owner, url)`. -/
def genericUrl (owner : Request) (url : Url) : Except Failure Request :=
  if url.scheme = [] then .error (.invalidArgument "Empty scheme")
  else if url.authority = [] then .error (.invalidArgument "Empty authority")
  else if url.path = [] then .error (.invalidArgument "Empty path")
  else do
    let scheme ← HeaderField.create (ascii ":scheme") url.scheme .default
    let authority ← HeaderField.create (ascii ":authority") url.encodedAuthority .default
    let path ← HeaderField.create (ascii ":path") url.encodedResource .default
    .ok (((owner.header scheme).header authority).header path)

/-- `request(url, m)`. -/
def create (url : Url) (m : Method) : Except Failure Request := do
  let request ← genericUrl ⟨[], [], 0⟩ url
  let method ← HeaderField.create (ascii ":method") (ascii m.toString) .default
  .ok (request.header method)

/-- A new request has header fields and no body. -/
theorem create_spec {url : Url} {m : Method} {request : Request}
    (built : create url m = .ok request) :
    request.headerList ≠ [] ∧ request.bodyList = [] ∧ request.size = 0 := by
  obtain ⟨owner, generic, rest⟩ := Outcome.bind_eq_ok.mp built
  obtain ⟨method, _, same⟩ := Outcome.bind_eq_ok.mp rest
  cases same
  unfold genericUrl at generic
  split at generic
  · cases generic
  · split at generic
    · cases generic
    · split at generic
      · cases generic
      · obtain ⟨scheme, _, rest⟩ := Outcome.bind_eq_ok.mp generic
        obtain ⟨authority, _, rest⟩ := Outcome.bind_eq_ok.mp rest
        obtain ⟨path, _, same⟩ := Outcome.bind_eq_ok.mp rest
        cases same
        exact ⟨List.cons_ne_nil _ _, rfl, rfl⟩

/-- `commit_headers(n)`. -/
def commitHeaders (request : Request) (n : Nat) : Request :=
  { request with headerList := request.headerList.drop n }

/-- Bodies leave the header fields alone. -/
@[simp] theorem bodies_headerList (slices : List Bytes) (request : Request) :
    (request.bodies slices).headerList = request.headerList := by
  induction slices generalizing request with
  | nil => rfl
  | cons slice slices ih => exact ih (request.body slice)

/-- Bodies are appended in order. -/
@[simp] theorem bodies_bodyList (slices : List Bytes) (request : Request) :
    (request.bodies slices).bodyList = request.bodyList ++ slices := by
  induction slices generalizing request with
  | nil => exact (List.append_nil _).symm
  | cons slice slices ih =>
      refine (ih (request.body slice)).trans ?_
      rw [body, List.append_assoc]
      rfl

/-- Slices added with `body` are all counted. -/
theorem bodies_size (slices : List Bytes) (request : Request) :
    (request.bodies slices).size = request.size + slices.flatten.length := by
  induction slices generalizing request with
  | nil => rfl
  | cons slice slices ih =>
      refine (ih (request.body slice)).trans ?_
      rw [body, List.flatten_cons, List.length_append, Nat.add_assoc]

/-- The requests that can be made. -/
inductive Made : Request → Prop
  | create {url : Url} {m : Method} {request : Request} (built : create url m = .ok request) :
      Made request
  | header {request : Request} (made : Made request) (field : HeaderField) :
      Made (request.header field)
  | headers {request : Request} (made : Made request) (fields : List HeaderField) :
      Made (request.headers fields)
  | body {request : Request} (made : Made request) (slice : Bytes) : Made (request.body slice)

/-- Every request has header fields. -/
theorem Made.headerList_ne_nil {request : Request} (made : Made request) :
    request.headerList ≠ [] := by
  induction made with
  | create built => exact (create_spec built).1
  | header _ field ih => exact List.append_ne_nil_of_left_ne_nil ih _
  | headers _ fields ih => exact List.append_ne_nil_of_left_ne_nil ih _
  | body _ slice ih => exact ih

/-- The size of a request is that of its body. -/
theorem Made.size_eq {request : Request} (made : Made request) :
    request.size = request.bodyList.flatten.length := by
  induction made with
  | create built =>
      obtain ⟨_, bodyless, size⟩ := create_spec built
      rw [bodyless, size]
      rfl
  | header _ field ih => exact ih
  | headers _ fields ih => exact ih
  | body _ slice ih =>
      simp only [Request.body, ih, List.flatten_append, List.length_append, List.flatten_singleton]

/-- Bodies can be added to a request one after the other. -/
theorem Made.bodies {request : Request} (made : Made request) (slices : List Bytes) :
    Made (request.bodies slices) := by
  induction slices generalizing request with
  | nil => exact made
  | cons slice slices ih => exact ih (made.body slice)

end Request

/-- `response`. A body block is the span of the payload in its DATA frame. -/
structure Response where
  headerList : List HeaderField
  statusView : Bytes
  bodyBlocks : List Span
  size : Nat

namespace Response

/-- `response()`. -/
def create : Response := ⟨[], [], [], 0⟩

/-- The source of a move: the members that are no containers keep their values. -/
def movedFrom (response : Response) : Response :=
  { response with headerList := [], bodyBlocks := [] }

/-- `insert_headers(header)`. -/
def insertHeaders (response : Response) (header : List HeaderField) : Response :=
  let headerList := response.headerList ++ header
  let statusView :=
    if response.statusView = [] then
      match headerList.find? fun field => field.name = ascii ":status" with
      | some field => field.value
      | none => []
    else response.statusView
  { response with headerList, statusView }

/-- `insert_body(b)`, with the analyzer over `b`. -/
def insertBody (response : Response) (frame : FrameAnalyzer) : Response :=
  let span := frame.span frame.data
  { response with
    bodyBlocks := response.bodyBlocks ++ [span]
    size := response.size + span.size }

/-- The loop of `copy_body`: the bytes it writes from `offset` on. -/
def copyBlocks : List Span → Nat → Nat → Bytes
  | [], _, _ => []
  | block :: blocks, offset, len =>
      if offset = len then []
      else
        let toCopy := min block.size (len - offset)
        block.bytes.take toCopy ++ copyBlocks blocks (offset + toCopy) len

/-- `copy_body(dst, len)`: the bytes written to `dst`. -/
def copyBody (response : Response) (len : Nat) : Bytes := copyBlocks response.bodyBlocks 0 len

/-- A destination for all bytes gets all of them. -/
theorem copyBlocks_all (blocks : List Span) (offset len : Nat)
    (whole : len = offset + (blocks.map Span.size).sum) :
    copyBlocks blocks offset len = blocks.flatMap Span.bytes := by
  induction blocks generalizing offset with
  | nil => rfl
  | cons block blocks ih =>
      rw [List.map_cons, List.sum_cons] at whole
      rw [copyBlocks, List.flatMap_cons]
      split
      · have empty : block.bytes = [] :=
          List.length_eq_zero_iff.mp (by rw [Span.length_bytes]; omega)
        rw [empty, List.nil_append, ← ih offset (by omega)]
        cases blocks with
        | nil => rfl
        | cons next blocks =>
            rename_i full
            rw [copyBlocks, if_pos full]
      · have all : min block.size (len - offset) = block.size := by omega
        simp only [all]
        rw [ih (offset + block.size) (by omega),
          List.take_of_length_le (Nat.le_of_eq block.length_bytes)]

end Response

end H2pp.Http2
