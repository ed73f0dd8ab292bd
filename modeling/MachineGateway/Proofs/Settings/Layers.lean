/-
The layers of settings. Each of the thirteen settings has an option among the flags and one in the file, and the first
of the two that is given decides (`Setting.chosen`); an empty text is given, an empty list of origins among the flags
is not. What the setting is then depends on that option alone, and where none is given it is the default
(`Setting.value?`). Settings are resolved exactly to what each of them is so decided to be, and if the listen address is
none, there are no settings (`resolve_eq_ok_iff`, `resolve_eq_error_iff`).

So it makes no difference whether an option stands in the file or among the flags (`resolved_by_layers`), with one
exception: an empty list of origins, which only a file can give, allows no origin.
-/
import Mathlib.Tactic
import MachineGateway.Proofs.Net.Address
import MachineGateway.Settings.Basic

namespace MachineGateway

/-! ## Settings one by one -/

inductive Setting where
  | listen | controlPlane | publicHost | serviceName | serviceTag | servicePort | backendHost | dialMode
  | forwardTimeout | discoveryTimeout | shutdownGrace | allowedOrigins | logLevel
  deriving DecidableEq, Repr

namespace Setting

/-- what an option holds -/
def Given : Setting → Type
  | .dialMode => DialMode
  | .forwardTimeout | .discoveryTimeout | .shutdownGrace => Nat
  | .allowedOrigins => List String
  | _ => String

/-- what a setting is -/
def Value : Setting → Type
  | .listen => Net.SocketAddress
  | .servicePort => Option String
  | .dialMode => DialMode
  | .forwardTimeout | .discoveryTimeout | .shutdownGrace => Span
  | .allowedOrigins => UpgradePolicy
  | _ => String

/-- the option among the flags; no origins are no option -/
def inFlags (flags : Flags) : (k : Setting) → Option k.Given
  | .listen => flags.listen
  | .controlPlane => flags.controlPlane
  | .publicHost => flags.publicHost
  | .serviceName => flags.serviceName
  | .serviceTag => flags.serviceTag
  | .servicePort => flags.servicePort
  | .backendHost => flags.backendHost
  | .dialMode => flags.dialMode
  | .forwardTimeout => flags.forwardTimeout
  | .discoveryTimeout => flags.discoveryTimeout
  | .shutdownGrace => flags.shutdownGrace
  | .allowedOrigins => if flags.allowedOrigins = [] then none else some flags.allowedOrigins
  | .logLevel => flags.logLevel

/-- the option in the file -/
def inFile (file : FileSettings) : (k : Setting) → Option k.Given
  | .listen => file.listen
  | .controlPlane => file.controlPlane
  | .publicHost => file.publicHost
  | .serviceName => file.serviceName
  | .serviceTag => file.serviceTag
  | .servicePort => file.servicePort
  | .backendHost => file.backendHost
  | .dialMode => file.dialMode
  | .forwardTimeout => file.forwardTimeout
  | .discoveryTimeout => file.discoveryTimeout
  | .shutdownGrace => file.shutdownGrace
  | .allowedOrigins => file.allowedOrigins
  | .logLevel => file.logLevel

/-- the option that decides -/
def chosen (flags : Flags) (file : FileSettings) (k : Setting) : Option k.Given := (k.inFlags flags).or (k.inFile file)

/-- what a setting is where an option decides it, or its default where none does; a listen address has to be one -/
def value? : (k : Setting) → Option k.Given → Option k.Value
  | .listen, o => Net.SocketAddress.parse? (o.getD "0.0.0.0:3007")
  | .controlPlane, o => some (o.getD "http://127.0.0.1:7000")
  | .publicHost, o => some (o.getD "localhost:3007")
  | .serviceName, o => some (o.getD "cdp")
  | .serviceTag, o => some (o.getD "cdp")
  | .servicePort, o => some o
  | .backendHost, o => some (o.getD "127.0.0.1")
  | .dialMode, o => some (o.getD .mapped)
  | .forwardTimeout, o => some (.ofSeconds (o.getD (10 : Nat)))
  | .discoveryTimeout, o => some (.ofSeconds (o.getD (5 : Nat)))
  | .shutdownGrace, o => some (.ofSeconds (o.getD (30 : Nat)))
  | .allowedOrigins, none => some .allowAll
  | .allowedOrigins, some origins => some (.allowOrigins origins)
  | .logLevel, o => some (o.getD "info")

/-- a setting among the settings of a run -/
def among (s : Settings) : (k : Setting) → k.Value
  | .listen => s.listen
  | .controlPlane => s.controlPlane
  | .publicHost => s.publicHost
  | .serviceName => s.service.name
  | .serviceTag => s.service.selector.tag
  | .servicePort => s.service.selector.port
  | .backendHost => s.dialing.host
  | .dialMode => s.dialing.mode
  | .forwardTimeout => s.forwardTimeout
  | .discoveryTimeout => s.discoveryTimeout
  | .shutdownGrace => s.shutdownGrace
  | .allowedOrigins => s.policy
  | .logLevel => s.logLevel

/-- the thirteen settings are all that the settings of a run are -/
theorem among_injective {s s' : Settings} (h : ∀ k : Setting, k.among s = k.among s') : s = s' := by
  obtain ⟨l, c, p, ⟨n, t, q⟩, ⟨m, b⟩, f, d, g, o, v⟩ := s
  obtain ⟨l', c', p', ⟨n', t', q'⟩, ⟨m', b'⟩, f', d', g', o', v'⟩ := s'
  obtain rfl : l = l' := h .listen
  obtain rfl : c = c' := h .controlPlane
  obtain rfl : p = p' := h .publicHost
  obtain rfl : n = n' := h .serviceName
  obtain rfl : t = t' := h .serviceTag
  obtain rfl : q = q' := h .servicePort
  obtain rfl : b = b' := h .backendHost
  obtain rfl : m = m' := h .dialMode
  obtain rfl : f = f' := h .forwardTimeout
  obtain rfl : d = d' := h .discoveryTimeout
  obtain rfl : g = g' := h .shutdownGrace
  obtain rfl : o = o' := h .allowedOrigins
  obtain rfl : v = v' := h .logLevel
  rfl

end Setting

/-! ## Resolution -/

namespace Settings

variable {flags flags' : Flags} {file file' : FileSettings} {s : Settings} {e : ListenError}

/-- the text that has to be a listen address -/
def listenText (flags : Flags) (file : FileSettings) : String := (Setting.listen.chosen flags file).getD defaultListen

theorem pick_listen (flags : Flags) (file : FileSettings) :
    pick flags.listen file.listen defaultListen = listenText flags file := rfl

theorem origins_eq_chosen (flags : Flags) (file : FileSettings) :
    origins flags file = Setting.allowedOrigins.chosen flags file := by
  unfold origins Setting.chosen Setting.inFlags Setting.inFile
  cases flags.allowedOrigins <;> rfl

theorem value?_allowedOrigins (o : Option (List String)) : Setting.allowedOrigins.value? o = some (policyOf o) := by
  cases o <;> rfl

theorem resolve_eq_error_iff : resolve flags file = .error e ↔
    Net.SocketAddress.parse? (listenText flags file) = none ∧ e = ⟨listenText flags file⟩ := by
  rw [resolve, pick_listen]
  cases Net.SocketAddress.parse? (listenText flags file) with
  | none => simp [eq_comm]
  | some a => simp

/-- settings are resolved to what each is decided to be -/
theorem value?_of_resolve (h : resolve flags file = .ok s) (k : Setting) :
    k.value? (k.chosen flags file) = some (k.among s) := by
  rw [resolve, pick_listen] at h
  cases hlisten : Net.SocketAddress.parse? (listenText flags file) with
  | none => simp [hlisten] at h
  | some a =>
    rw [hlisten] at h
    obtain rfl := Except.ok.inj h
    cases k with
    | listen => exact hlisten
    | allowedOrigins =>
      rw [← origins_eq_chosen, value?_allowedOrigins]
      rfl
    | _ => rfl

theorem resolve_eq_ok_iff :
    resolve flags file = .ok s ↔ ∀ k : Setting, k.value? (k.chosen flags file) = some (k.among s) := by
  refine ⟨value?_of_resolve, fun h => ?_⟩
  cases hresolve : resolve flags file with
  | error e =>
    have hlisten : Net.SocketAddress.parse? (listenText flags file) = some s.listen := h .listen
    rw [(resolve_eq_error_iff.1 hresolve).1] at hlisten
    exact absurd hlisten (by simp)
  | ok s' =>
    have hsame : s' = s := Setting.among_injective fun k =>
      Option.some.inj ((value?_of_resolve hresolve k).symm.trans (h k))
    rw [hsame]

/-- nothing decides but the options that are chosen -/
theorem resolve_congr (h : ∀ k : Setting, k.chosen flags file = k.chosen flags' file') :
    resolve flags file = resolve flags' file' := by
  have htext : listenText flags file = listenText flags' file' := congrArg (·.getD defaultListen) (h .listen)
  cases hresolve : resolve flags' file' with
  | error e =>
    rw [resolve_eq_error_iff] at hresolve ⊢
    rwa [htext]
  | ok s =>
    rw [resolve_eq_ok_iff] at hresolve ⊢
    intro k
    rw [h]
    exact hresolve k

/-- the listen address is the one whose text was chosen -/
theorem listen_of_resolve {v : Net.V4} {port : Nat} (hsound : Net.SocketAddress.IsSound v port)
    (htext : listenText flags file = (Net.SocketAddress.v4 v port).text) (h : resolve flags file = .ok s) :
    s.listen = .v4 v port := by
  have hvalue : Net.SocketAddress.parse? (listenText flags file) = some s.listen := value?_of_resolve h .listen
  rw [htext, Net.SocketAddress.parse?_text hsound] at hvalue
  exact (Option.some.inj hvalue).symm

end Settings

/-! ## The file as flags -/

/-- the flags with each option that they lack taken from the file -/
def Flags.filled (flags : Flags) (file : FileSettings) : Flags where
  config := flags.config
  listen := flags.listen.or file.listen
  controlPlane := flags.controlPlane.or file.controlPlane
  publicHost := flags.publicHost.or file.publicHost
  serviceName := flags.serviceName.or file.serviceName
  serviceTag := flags.serviceTag.or file.serviceTag
  servicePort := flags.servicePort.or file.servicePort
  backendHost := flags.backendHost.or file.backendHost
  dialMode := flags.dialMode.or file.dialMode
  forwardTimeout := flags.forwardTimeout.or file.forwardTimeout
  discoveryTimeout := flags.discoveryTimeout.or file.discoveryTimeout
  shutdownGrace := flags.shutdownGrace.or file.shutdownGrace
  allowedOrigins := if flags.allowedOrigins = [] then file.allowedOrigins.getD [] else flags.allowedOrigins
  logLevel := flags.logLevel.or file.logLevel

namespace Settings

variable {flags : Flags} {file : FileSettings}

/-- filled flags decide alone what flags and file decide together -/
theorem chosen_filled (h : file.allowedOrigins ≠ some []) (k : Setting) :
    k.chosen (flags.filled file) {} = k.chosen flags file := by
  cases k with
  | allowedOrigins =>
    rw [← origins_eq_chosen, ← origins_eq_chosen, origins, origins, Flags.filled]
    -- a list in the file is not empty, so that it is still a list among the flags
    cases hflags : flags.allowedOrigins with
    | cons o l => rfl
    | nil =>
      cases hfile : file.allowedOrigins with
      | none => rfl
      | some l =>
        cases l with
        | nil => exact absurd hfile h
        | cons o l => rfl
  | _ => exact Option.or_none

/-- **Each setting is decided by its own option, wherever it stands.** Unless the file gives an empty list of origins,
flags and file are resolved as the flags alone that are filled with the options of the file, to the same settings or
for the same error. They are resolved to settings exactly if each setting is what its own option, or its default,
decides; so where the option of a setting is the same, the setting is, whatever the others are. There are none exactly
if the listen text that was chosen is no socket address, and that text is what the error says. An empty list of
origins in the file, with no origins among the flags, permits just the callers without an origin. -/
theorem resolved_by_layers (flags : Flags) (file : FileSettings) :
    (file.allowedOrigins ≠ some [] → resolve flags file = resolve (flags.filled file) {}) ∧
      (∀ s, resolve flags file = .ok s ↔ ∀ k : Setting, k.value? (k.chosen flags file) = some (k.among s)) ∧
      (∀ e, resolve flags file = .error e ↔
        Net.SocketAddress.parse? (listenText flags file) = none ∧ e = ⟨listenText flags file⟩) ∧
      (∀ flags' file' s s' (k : Setting), resolve flags file = .ok s → resolve flags' file' = .ok s' →
        k.chosen flags file = k.chosen flags' file' → k.among s = k.among s') ∧
      (flags.allowedOrigins = [] → file.allowedOrigins = some [] → ∀ s, resolve flags file = .ok s →
        ∀ origin, s.policy.permits origin = true ↔ origin = none) := by
  refine ⟨fun h => ?_, fun s => resolve_eq_ok_iff, fun e => resolve_eq_error_iff, ?_, ?_⟩
  · exact resolve_congr fun k => (chosen_filled h k).symm
  · intro flags' file' s s' k hs hs' hchosen
    have hsame := (value?_of_resolve hs k).symm.trans (hchosen ▸ value?_of_resolve hs' k)
    exact Option.some.inj hsame
  · intro hflags hfile s hs origin
    have hchosen : Setting.allowedOrigins.chosen flags file = some [] := by
      rw [← origins_eq_chosen, origins, hflags, hfile]
      rfl
    have hpolicy : s.policy = .allowOrigins [] := by
      have hvalue := value?_of_resolve hs .allowedOrigins
      rw [hchosen] at hvalue
      exact (Option.some.inj hvalue).symm
    rw [hpolicy]
    cases origin <;> simp [UpgradePolicy.permits, UpgradePolicy.allowOrigins]

/-- flags with an empty text and with a mode that the file gives otherwise -/
def someFlags : Flags := { controlPlane := some "", dialMode := some .mapped }

def someFile : FileSettings :=
  { listen := some "127.0.0.1:9000", controlPlane := some "http://control:7000", servicePort := some "9223",
    dialMode := some .direct, forwardTimeout := some 3, allowedOrigins := some ["https://a.example"] }

theorem some_file_as_flags : someFile.allowedOrigins ≠ some [] ∧
    resolve someFlags someFile = resolve (someFlags.filled someFile) {} ∧
      (resolve someFlags someFile).map (fun s =>
          (s.listen, s.controlPlane, s.dialing.mode, s.service.selector.port)) =
        .ok (.v4 ⟨127, 0, 0, 1⟩ 9000, "", .mapped, some "9223") := by
  have hfile : someFile.allowedOrigins ≠ some [] := by decide
  exact ⟨hfile, (resolved_by_layers someFlags someFile).1 hfile, by decide +kernel⟩

end Settings

end MachineGateway
