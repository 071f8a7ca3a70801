import Mathlib.Algebra.GroupWithZero.Nat
import Mathlib.Data.List.Basic

/-! # Errors and failures

The `error_code` values of the client and the ways in which a call can end
without returning. An operation that C++ leaves undefined (a shift by the word
width or more, a read through the end iterator of an empty queue, a call
through a null pointer) has no result at all, so it is an outcome of its own:
no handler catches it and nothing can be said about what follows.
-/

namespace H2pp

abbrev Bytes := List UInt8

/-- The bytes of an ASCII literal. -/
def ascii (text : String) : Bytes := text.toList.map fun char => char.toUInt8

/-- `utils::native_to_big` on 32 bits, on a little-endian host. -/
def nativeToBig32 (x : Nat) : Nat :=
  let step16 := (x <<< 16 ||| x >>> 16) % 2 ^ 32
  (step16 <<< 8 &&& 0xff00ff00) ||| (step16 >>> 8 &&& 0x00ff00ff)

/-- The transport errors of `boost::asio` that the client reports itself. -/
inductive AsioError
  | notConnected
  | inProgress
  | timedOut
  deriving DecidableEq, Repr

/-- A `boost::system::error_code`: none, a value of the `HTTP2` category as the raw
32-bit number the enumeration holds, or a transport error. -/
inductive ErrorCode
  | success
  | http2 (value : Nat)
  | asio (error : AsioError)
  deriving DecidableEq, Repr

namespace ErrorCode

def protocolError : ErrorCode := .http2 (nativeToBig32 1)
def internalError : ErrorCode := .http2 (nativeToBig32 2)
def settingsTimeout : ErrorCode := .http2 (nativeToBig32 4)
def frameSizeError : ErrorCode := .http2 (nativeToBig32 6)
def compressionError : ErrorCode := .http2 (nativeToBig32 9)

end ErrorCode

/-- How a call ends when it does not return: a thrown exception with its text,
or an operation without defined meaning. -/
inductive Failure
  | invalidArgument (what : String)
  | overflowError (what : String)
  | runtimeError (what : String)
  | lengthError (what : String)
  | systemError (code : ErrorCode) (what : String)
  | undefinedBehaviour
  deriving DecidableEq, Repr

/-- `what()` of an exception. -/
def Failure.what : Failure → String
  | .invalidArgument what => what
  | .overflowError what => what
  | .runtimeError what => what
  | .lengthError what => what
  | .systemError _ what => what
  | .undefinedBehaviour => ""

end H2pp
