/-
What an error is answered with. The texts in an error come from callers, backends and the control plane, and may hold
any characters; the message says each of them (`infix_message`). Still the body is a text of one JSON object, with the
error in words and its kind and nothing else (`answers_with_error`): a text can neither end its string nor add a member,
and it is no part of the kind, which tells the eight cases of errors apart.
-/
import MachineGateway.Gateway.Error
import MachineGateway.Proofs.Json.Documents
import MachineGateway.Proofs.Text.Cutting

namespace MachineGateway.GatewayError

open Json Http Text

/-- the same case of an error, about any texts -/
inductive SameCase : GatewayError → GatewayError → Prop
  | unreachable (a b : String) : SameCase (.lookup (.unreachable a)) (.lookup (.unreachable b))
  | malformed (a b : String) : SameCase (.lookup (.malformed a)) (.lookup (.malformed b))
  | notNamed (a a' b b' : String) : SameCase (.lookup (.notNamed a a')) (.lookup (.notNamed b b'))
  | noneRunning (a b : String) : SameCase (.lookup (.noneRunning a)) (.lookup (.noneRunning b))
  | badTarget (a b : String) : SameCase (.badTarget a) (.badTarget b)
  | backend (a b : String) : SameCase (.backend a) (.backend b)
  | origin (a b : String) : SameCase (.origin a) (.origin b)
  | handshake (a b : String) : SameCase (.handshake a) (.handshake b)

theorem SameCase.kind_eq {e e' : GatewayError} (h : e.SameCase e') : e.kind = e'.kind := by
  cases h <;> rfl

/-- the kind tells which case an error is -/
theorem sameCase_iff (e e' : GatewayError) : e.SameCase e' ↔ e.kind = e'.kind := by
  refine ⟨SameCase.kind_eq, fun h => ?_⟩
  rcases e with ⟨_ | _ | _ | _⟩ | _ | _ | _ | _ <;> rcases e' with ⟨_ | _ | _ | _⟩ | _ | _ | _ | _
  all_goals first
    | constructor
    | simp [kind, LookupError.kind] at h

/-- the texts that an error is about -/
def texts : GatewayError → List String
  | .lookup (.notNamed name service) => [name, service]
  | .lookup (.unreachable text) | .lookup (.malformed text) | .lookup (.noneRunning text) | .badTarget text
  | .backend text | .origin text | .handshake text => [text]

/-- an error says in words every text that it is about -/
theorem infix_message (e : GatewayError) : ∀ t ∈ e.texts, t.toList <:+: e.message.toList := by
  rcases e with ⟨reason | reason | ⟨name, service⟩ | service⟩ | reason | reason | text | reason
  case lookup.notNamed =>
    have hname := infix_inner (infix_last "No running machine named '" name) "' exposes service '"
    have hservice := infix_last ("No running machine named '" ++ name ++ "' exposes service '") service
    exact List.forall_mem_cons.2 ⟨infix_inner (infix_inner hname service) "'",
      List.forall_mem_singleton.2 (infix_inner hservice "'")⟩
  case lookup.noneRunning =>
    exact List.forall_mem_singleton.2 (infix_inner (infix_last "No running machine exposes service '" service) "'")
  all_goals exact List.forall_mem_singleton.2 (infix_last _ _)

theorem body_eq (e : GatewayError) : e.response.body = Utf8.encode e.doc.render := by
  rw [response, Response.ofText]

/-- **An error is answered with one JSON object of its message and its kind**, whatever texts are in it. The body is a
text of that object and of no other value; it is read as the message and the kind, with nothing after them; and the
kind is that of the case of the error, which no text changes. -/
theorem answers_with_error (e : GatewayError) :
    (∀ v : Value, v.IsText e.response.body ↔ v = .object [("error", .text e.message), ("kind", .text e.kind)]) ∧
      Doc.ofBytes e.response.body = (.record [("error", .text e.message), ("kind", .text e.kind)], none) ∧
      ∀ e', e.SameCase e' ↔ e.kind = e'.kind := by
  have htext : ∀ v : Value, v.IsText e.response.body ↔
      v = .object [("error", .text e.message), ("kind", .text e.kind)] := by
    intro v
    rw [body_eq]
    exact isText_texts_iff [("error", e.message), ("kind", e.kind)] v
  exact ⟨htext, ofBytes_of_isText ((htext _).2 rfl), e.sameCase_iff⟩

end MachineGateway.GatewayError
