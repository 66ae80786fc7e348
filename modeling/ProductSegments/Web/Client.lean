import ProductSegments.Web.Url

/-!
# Asking the web

A client asks a host for something and waits for a limited time.  The answer may send it on to
another address, which happens at most ten times.

## Main definitions

* `Web.Reaction` — what comes of one request.
* `Web.Network` — what comes of all requests.
* `Web.follow` — a request that goes wherever the answers send it.
* `Web.get` — the request for something, and what came of it.
-/

namespace ProductSegments.Web

/-- How the body of an answer arrives. -/
inductive Arrival where
  | complete (body : List UInt8)
  /-- The connection is lost before the body ends. -/
  | lost
  /-- The deadline passes before the body ends. -/
  | late
  deriving DecidableEq, Repr

/-- The answer to a request. -/
structure Answer where
  status : Nat
  /-- Where the answer sends its reader. -/
  location? : Option (List UInt8)
  arrival : Arrival
  deriving DecidableEq, Repr

/-- What comes of one request. -/
inductive Reaction where
  /-- There is no connection to the host. -/
  | refused
  /-- The connection is lost before an answer. -/
  | lost
  /-- The deadline passes before an answer. -/
  | late
  | answered (answer : Answer)
  deriving DecidableEq, Repr

/-- What comes of a request, by the number of requests before it and its address. -/
abbrev Network := Nat → Url → Reaction

/-- The network in which no host can be reached. -/
def Network.closed : Network := fun _ _ => .refused

/-- Why there is no answer. -/
inductive Mishap where
  /-- The host could not be reached, or was lost. -/
  | connection
  /-- The deadline has passed. -/
  | deadline
  /-- The address is none of the web. -/
  | address
  /-- The answers sent the client on and on. -/
  | redirects
  deriving DecidableEq, Repr

/-- A request with all that followed from it. -/
structure Exchange where
  /-- What the hosts were asked for, in order. -/
  targets : List (List Char)
  result : Except Mishap Answer

/-- The answer may send its reader on. -/
def Answer.isRedirect (a : Answer) : Bool := [301, 302, 303, 307, 308].contains a.status

/-- The status says that the request succeeded. -/
def Answer.isSuccess (a : Answer) : Bool := 200 ≤ a.status && a.status < 300

/-- Where an answer from an address sends its reader, if it does. -/
def Answer.onward? (a : Answer) (url : Url) : Option Reference :=
  if a.isRedirect then
    match a.location?.bind Utf8.decode? with
    | some location => match Reference.read (some url) location with
      | .malformed => none
      | reference => some reference
    | none => none
  else none

/-- A request after `asked` others, which may be sent on `left` times. -/
def follow (network : Network) : (left asked : Nat) → Url → Exchange
  | left, asked, url =>
    match network asked url with
    | .refused => ⟨[], .error .connection⟩
    | .lost => ⟨[url.target], .error .connection⟩
    | .late => ⟨[url.target], .error .deadline⟩
    | .answered answer =>
      match answer.onward? url, left with
      | none, _ => ⟨[url.target], .ok answer⟩
      | some (.web next), left + 1 =>
        let later := follow network left (asked + 1) next
        { later with targets := url.target :: later.targets }
      | some (.web _), 0 => ⟨[url.target], .error .redirects⟩
      | some _, _ => ⟨[url.target], .error .address⟩

/-- How often a client lets itself be sent on. -/
def maxRedirects : Nat := 10

/-- The request for what an address leads to. -/
def get (network : Network) : Reference → Exchange
  | .web url => follow network maxRedirects 0 url
  | .foreign | .malformed => ⟨[], .error .address⟩

end ProductSegments.Web
