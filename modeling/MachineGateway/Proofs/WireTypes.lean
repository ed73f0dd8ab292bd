/-
The types that go over the wire or into a file: listings, selectors, service profiles, upgrade policies and
configuration files. The reader of each undoes its documents, from the parts up to the whole, so that a value is read
back from its text, whatever characters its names hold, and what was read from any text is read back from the text of
the value (`wire_types_round_trip`).
-/
import MachineGateway.Gateway.Config
import MachineGateway.Proofs.Json.Reading
import MachineGateway.Settings.File

namespace MachineGateway

open Json

variable {α : Type}

/-- reading and writing are inverse to each other on the values with a property, and only such values are read -/
structure RoundTrips (read : Reader α) (doc : α → Doc) (P : α → Prop) : Prop where
  /-- a value is read back from its text -/
  decode_encode : ∀ a, P a → fromBytes read (Utf8.encode (doc a).render) = .ok a
  /-- what was read from a text is read from the text of the value -/
  decode_encode_decode : ∀ s a, fromBytes read s = .ok a →
    fromBytes read (Utf8.encode (doc a).render) = fromBytes read s

theorem read_of_fromBytes {read : Reader α} {s : Bytes} {a : α} (h : fromBytes read s = .ok a) :
    read (Doc.ofBytes s).1 = .ok a := by
  simp only [fromBytes] at h
  cases hread : read (Doc.ofBytes s).1 with
  | error e => simp [hread] at h
  | ok b =>
    cases hafter : (Doc.ofBytes s).2 with
    | some f => simp [hread, hafter] at h
    | none => simpa [hread, hafter] using h

theorem RoundTrips.of_undoes {read : Reader α} {doc : α → Doc} {P : α → Prop} (h : ∀ a, P a → Undoes read doc a)
    (hread : ∀ d a, d.Fits → read d = .ok a → P a) : RoundTrips read doc P := by
  refine ⟨fun a ha => (h a ha).fromBytes, fun s a hs => ?_⟩
  have ha : P a := hread _ a (fits_ofBytes s) (read_of_fromBytes hs)
  rw [(h a ha).fromBytes, hs]

/-! ## Machines -/

theorem Status.undoes (s : Status) : Undoes read doc s := by
  refine ⟨.text s.name, ?_⟩
  cases s <;> decide +kernel

theorem Mapping.undoes (m : Mapping) : Undoes read doc m := by
  constructor
  · exact .record _ (by simp [Doc.Plain.text])
  · simp [read, doc, Form.read, Doc.record, Form.readMembers, form, readText, Except.map, required]

theorem Machine.undoes (m : Machine) : Undoes read doc m := by
  have hstatus := m.status.undoes
  have hmappings : Undoes (readList Mapping.read) (listDoc Mapping.doc) m.mappings :=
    Undoes.list fun x _ => x.undoes
  constructor
  · exact .record _ (by simp [Doc.Plain.text, hstatus.plain, hmappings.plain])
  · simp [read, doc, Form.read, Doc.record, Form.readMembers, form, readText, Except.map, required, hstatus.reads,
      hmappings.reads]

theorem Listing.undoes (l : Listing) : Undoes read doc l := by
  have hmachines : Undoes (readList Machine.read) (listDoc Machine.doc) l.machines :=
    Undoes.list fun m _ => m.undoes
  constructor
  · exact .record _ (by simp [hmachines.plain])
  · simp [read, doc, Form.read, Doc.record, Form.readMembers, form, Except.map, hmachines.reads]

/-! ## Services and policies -/

theorem Selector.undoes (s : Selector) : Undoes read doc s := by
  have hport := undoes_optionalText s.port
  constructor
  · exact .record _ (by simp [Doc.Plain.text, hport.plain])
  · simp [read, doc, Form.read, Doc.record, Form.readMembers, form, readText, Except.map, required, hport.reads]

theorem ServiceProfile.undoes (p : ServiceProfile) : Undoes read doc p := by
  have hselector := p.selector.undoes
  constructor
  · exact .record _ (by simp [Doc.Plain.text, hselector.plain])
  · simp [read, doc, Form.read, Doc.record, Form.readMembers, form, readText, Except.map, required, hselector.reads]

/-- a list of origins, where no list is other than an empty one -/
theorem undoes_origins (o : Option (List String)) :
    Undoes (readOptional (readList readText)) (optionalDoc (listDoc .text)) o :=
  Undoes.optional fun _ _ => ⟨Undoes.list fun s _ => undoes_text s, by simp [listDoc]⟩

theorem UpgradePolicy.undoes (p : UpgradePolicy) : Undoes read doc p := by
  have horigins := undoes_origins p.allowed
  constructor
  · exact .record _ (by simp [horigins.plain])
  · simp [read, doc, Form.read, Doc.record, Form.readMembers, form, Except.map, horigins.reads]

/-! ## Configuration files -/

theorem DialMode.undoes (m : DialMode) : Undoes read doc m := by
  refine ⟨.text m.name, ?_⟩
  cases m <;> decide +kernel

namespace FileSettings

/-- settings whose times are numbers of 64 bits -/
structure TimesFit (f : FileSettings) : Prop where
  forward : ∀ n, f.forwardTimeout = some n → n ≤ Text.wordLimit
  discovery : ∀ n, f.discoveryTimeout = some n → n ≤ Text.wordLimit
  shutdown : ∀ n, f.shutdownGrace = some n → n ≤ Text.wordLimit

theorem undoes_time {o : Option Nat} (h : ∀ n, o = some n → n ≤ Text.wordLimit) :
    Undoes (readOptional readWord) (optionalDoc numberDoc) o :=
  Undoes.optional fun n hn => ⟨⟨.natural n (h n hn), rfl⟩, by simp [numberDoc]⟩

theorem undoes {f : FileSettings} (h : f.TimesFit) : Undoes read doc f := by
  have htext := undoes_optionalText
  have hmode : Undoes (readOptional DialMode.read) (optionalDoc DialMode.doc) f.dialMode :=
    Undoes.optional fun m _ => ⟨m.undoes, by simp [DialMode.doc]⟩
  have horigins := undoes_origins f.allowedOrigins
  have hforward := undoes_time h.forward
  have hdiscovery := undoes_time h.discovery
  have hshutdown := undoes_time h.shutdown
  constructor
  · exact .record _ (by simp [(htext _).plain, hmode.plain, horigins.plain, hforward.plain, hdiscovery.plain,
      hshutdown.plain])
  · simp [read, doc, Form.read, Doc.record, Form.readMembers, form, names, put, Except.map, (htext _).reads,
      hmode.reads, horigins.reads, hforward.reads, hdiscovery.reads, hshutdown.reads]

theorem fits_of_time {v : Doc} (hv : v.Fits) {o : Option Nat} (h : readOptional readWord v = .ok o) :
    ∀ n, o = some n → n ≤ Text.wordLimit := by
  rintro n rfl
  cases hv with
  | number x hx =>
    cases x with
    | natural m =>
      obtain rfl : m = n := by simpa [readOptional, readWord, Except.map] using h
      exact hx m rfl
    | _ => simp [readOptional, readWord, Except.map, Doc.unexpected] at h
  | _ => simp [readOptional, readWord, Except.map, Doc.unexpected] at h

/-- a reading that gives no settings but such whose times are numbers of 64 bits -/
def GivesFitting (x : Except Fault FileSettings) : Prop := ∀ f, x = .ok f → f.TimesFit

theorem GivesFitting.ite {c : Prop} [Decidable c] {x y : Except Fault FileSettings} (hx : GivesFitting x)
    (hy : GivesFitting y) : GivesFitting (if c then x else y) := by
  split_ifs
  · exact hx
  · exact hy

theorem GivesFitting.map {β : Type} {x : Except Fault β} {set : β → FileSettings}
    (h : ∀ b, x = .ok b → (set b).TimesFit) : GivesFitting (x.map set) := by
  intro f hf
  obtain ⟨b, hb, rfl⟩ := of_map_eq_ok hf
  exact h b hb

/-- a setting that is read leaves the times as they are or is a time itself -/
theorem timesFit_put {f : FileSettings} {name : String} {v : Doc} (hv : v.Fits) (hf : f.TimesFit) :
    GivesFitting (f.put name v) := by
  unfold put
  repeat' refine .ite ?_ ?_
  all_goals refine .map fun x hx => ?_
  all_goals first
    | exact ⟨hf.forward, hf.discovery, hf.shutdown⟩
    | exact ⟨fits_of_time hv hx, hf.discovery, hf.shutdown⟩
    | exact ⟨hf.forward, fits_of_time hv hx, hf.shutdown⟩
    | exact ⟨hf.forward, hf.discovery, fits_of_time hv hx⟩

theorem timesFit_read {d : Doc} (hd : d.Fits) {f : FileSettings} (h : read d = .ok f) : f.TimesFit := by
  have hstart : TimesFit {} := ⟨by simp, by simp, by simp⟩
  refine Form.of_read hstart (I := fun draft : Draft => draft.settings.TimesFit) ?_ ?_ hd h
  · intro draft name v draft' hv hdraft hput
    obtain ⟨f', hf', rfl⟩ := of_map_eq_ok hput
    exact timesFit_put hv hdraft f' hf'
  · intro draft f hdraft hfinish
    exact Except.ok.inj hfinish ▸ hdraft

end FileSettings

namespace ConfigFile

theorem undoes {c : ConfigFile} (h : c.gateway.TimesFit) : Undoes read doc c := by
  have hgateway := FileSettings.undoes h
  constructor
  · exact .record _ (by simp [hgateway.plain])
  · simp [read, doc, Form.read, Doc.record, Form.readMembers, form, Except.map, hgateway.reads]

theorem timesFit_read {d : Doc} (hd : d.Fits) {c : ConfigFile} (h : read d = .ok c) : c.gateway.TimesFit := by
  have hstart : (form.start.getD {}).TimesFit := ⟨by simp [form], by simp [form], by simp [form]⟩
  refine Form.of_read (I := fun found : Option FileSettings => (found.getD {}).TimesFit)
    (P := fun c : ConfigFile => c.gateway.TimesFit) hstart ?_ ?_ hd h
  · intro found name v found' hv _ hput
    obtain ⟨f, hf, rfl⟩ := of_map_eq_ok hput
    exact FileSettings.timesFit_read hv hf
  · intro found c hfound hfinish
    exact Except.ok.inj hfinish ▸ hfound

end ConfigFile

/-- **Decoding undoes encoding** for every value of the wire types, of a configuration file for times of 64 bits. Hence
what was decoded from any text is decoded from the encoded value again. -/
theorem wire_types_round_trip :
    RoundTrips Listing.read Listing.doc (fun _ => True) ∧ RoundTrips Selector.read Selector.doc (fun _ => True) ∧
      RoundTrips ServiceProfile.read ServiceProfile.doc (fun _ => True) ∧
      RoundTrips UpgradePolicy.read UpgradePolicy.doc (fun _ => True) ∧
      RoundTrips ConfigFile.read ConfigFile.doc (fun c => c.gateway.TimesFit) :=
  ⟨.of_undoes (fun l _ => l.undoes) fun _ _ _ _ => trivial, .of_undoes (fun s _ => s.undoes) fun _ _ _ _ => trivial,
    .of_undoes (fun p _ => p.undoes) fun _ _ _ _ => trivial, .of_undoes (fun p _ => p.undoes) fun _ _ _ _ => trivial,
    .of_undoes (fun _ h => ConfigFile.undoes h) fun _ _ hd h => ConfigFile.timesFit_read hd h⟩

/-- a file with quotes, backslashes, controls and far characters in a text, no origins, and the largest time -/
def oddConfig : ConfigFile :=
  ⟨{ serviceName := some "\"\\/\x00\x08\x1f\x7f\u2028😀", forwardTimeout := some Text.wordLimit,
     allowedOrigins := some [] }⟩

theorem odd_config_round_trips : oddConfig.gateway.TimesFit ∧
    fromBytes ConfigFile.read (Utf8.encode oddConfig.doc.render) = .ok oddConfig := by
  have hfits : oddConfig.gateway.TimesFit := by
    refine ⟨fun n hn => ?_, fun n hn => ?_, fun n hn => ?_⟩
    · exact Option.some.inj hn ▸ le_rfl
    · exact absurd hn (by simp [oddConfig])
    · exact absurd hn (by simp [oddConfig])
  exact ⟨hfits, wire_types_round_trip.2.2.2.2.decode_encode oddConfig hfits⟩

end MachineGateway
