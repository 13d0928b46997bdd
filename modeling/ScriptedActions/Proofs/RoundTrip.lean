import ScriptedActions.Dispatch.Preparation
import ScriptedActions.Proofs.Decoded
import ScriptedActions.Proofs.Decoding
import ScriptedActions.Proofs.Payloads
import ScriptedActions.Proofs.Timestamps

/-!
# A request as a value, and back

A script sees the request that it answers as a JSON value. The text of this value is a request again,
and the same one (`Request.comes_back`): only the text of its payload may be another, since a payload
is kept as it was written, with its blanks and the order of its members.

Two halves meet here. What is read as a request is regular, whether it was an object or an array
(`Request.decoder_gives`); and of a regular request every member is read from its text
(`Request.decoder_readsAs`). The bound of 124 levels on the entries of a filter is what a reader has
left inside a request, its filter and a list. A request that a program makes can go beyond it, and is
lost then (`Request.deeper_entry_lost`).
-/

set_option autoImplicit false

namespace ScriptedActions

open Json (minInt maxInt)
open Json.Reader (Gives)
open Json.Decoder (Fills Filling Stores IsFilled ReadsAs stores_needed stores_given list_gives
  record_gives text_gives raw_gives textWith_gives whole_gives text_readsAs raw_readsAs
  textWith_readsAs whole_readsAs list_readsAs value_readsAs record_readsAs)

/-! ## Filters -/

namespace Filter

/-- The entries of a filter that can be any values are nested no deeper than a bound. -/
def IsReadable (depth : Nat) (f : Filter) : Prop :=
  (∀ v ∈ f.fact, v.IsReadable depth) ∧ ∀ v ∈ f.compound, v.IsReadable depth

/-- The entries of a filter that can be any values are told exactly by their texts. -/
def IsExact (f : Filter) : Prop := (∀ v ∈ f.fact, v.IsExact) ∧ ∀ v ∈ f.compound, v.IsExact

theorem toJson_eq (f : Filter) : f.toJson = .object [
    ("agent", .array (f.agent.map .string)),
    ("cf_class", .array (f.configClass.map .string)),
    ("compound", .array f.compound),
    ("fact", .array f.fact),
    ("identity", .array (f.identity.map .string))] := by
  simp +decide only [toJson, members, Table.ofList, Table.insert, List.foldl, if_true, if_false]

variable {depth : Nat}

theorem texts_readsAs (texts : List String) :
    (Json.Decoder.list .text).ReadsAs (depth + 1) (.array (texts.map .string)) texts :=
  list_readsAs (fun s _ => text_readsAs s) fun s _ => .string s

theorem values_readsAs {values : List Json} (hreadable : ∀ v ∈ values, v.IsReadable depth)
    (hexact : ∀ v ∈ values, v.IsExact) :
    (Json.Decoder.list .value).ReadsAs (depth + 1) (.array values) values := by
  have hread : (Json.Decoder.list .value).ReadsAs (depth + 1) (.array (values.map id)) values :=
    list_readsAs (fun v hv => value_readsAs (hreadable v hv) (hexact v hv)) hexact
  rwa [List.map_id] at hread

theorem decoder_readsAs {f : Filter} (hreadable : f.IsReadable depth) (hexact : f.IsExact) :
    decoder.ReadsAs (depth + 2) f.toJson f := by
  obtain ⟨hfact, hcompound⟩ := hreadable
  obtain ⟨hfact', hcompound'⟩ := hexact
  rw [toJson_eq]
  -- the members stand in the order of their names, the fields in the order of the record
  have hdistinct : ["agent", "cf_class", "compound", "fact", "identity"].Nodup := by decide
  refine record_readsAs "Filter" ?_ hdistinct rfl
  exact .cons rfl ((texts_readsAs f.agent).map _) <|
    .cons rfl ((texts_readsAs f.configClass).map _) <|
    .cons rfl ((values_readsAs hcompound hcompound').map _) <|
    .cons rfl ((values_readsAs hfact hfact').map _) <|
    .cons rfl ((texts_readsAs f.identity).map _) <| .nil _

/-- What is read as a filter is nested three levels less deep than a reader goes. -/
theorem decoder_gives : decoder.read.Gives (depth + 3) (IsReadable depth) := by
  have htexts {k : Nat} : (Json.Decoder.list .text).read.Gives k fun _ => True :=
    (list_gives fun _ _ => text_gives).weaken fun _ _ => trivial
  have hvalues {k : Nat} (hk : depth + 3 = k + 2) : (Json.Decoder.list .value).read.Gives (k + 1)
      fun vs => ∀ v ∈ vs, v.IsReadable depth := by
    refine list_gives fun j hj => ?_
    obtain rfl : j = depth := by omega
    exact Json.Reader.gives_value j
  refine Gives.weaken (record_gives (I := fun _ => IsReadable depth) "Filter" ⟨nofun, nofun⟩ ?_)
    fun f ⟨_, hf, _⟩ => hf
  intro k hk f hf
  simp only [List.mem_cons, List.not_mem_nil, or_false] at hf
  rcases hf with rfl | rfl | rfl | rfl | rfl
  · exact stores_given (hvalues hk) fun vs hvs _ f hf => ⟨hvs, hf.2⟩
  · exact stores_given htexts fun _ _ _ f hf => hf
  · exact stores_given htexts fun _ _ _ f hf => hf
  · exact stores_given htexts fun _ _ _ f hf => hf
  · exact stores_given (hvalues hk) fun vs hvs _ f hf => ⟨hf.1, hvs⟩

end Filter

/-! ## Requests -/

namespace Request

/-- A request as one can be read: its validity is a 64-bit integer, its time is one that there is, and
its filter is nested no deeper than a request can be. -/
structure IsRegular (r : Request) : Prop where
  ttl : minInt ≤ r.ttl ∧ r.ttl ≤ maxInt
  time : r.time.IsValid
  filter : r.filter.IsReadable 124

/-- A request as there can be one: it was read from a text, or a program made it, with any fields that
can be read again. -/
inductive IsGiven : Request → Prop
  | read {text : String} {r : Request} (h : decoder.parse text = .ok r) : IsGiven r
  | made (agent action caller collective id sender : String) (data : Json) {filter : Filter}
    {ttl : Int} {time : Timestamp} (hfilter : filter.IsReadable 124)
    (httl : minInt ≤ ttl ∧ ttl ≤ maxInt) (htime : time.IsValid) :
    IsGiven { Request.new agent action data id time with caller, collective, sender, filter, ttl }

/-- What holds of a request while its members are read. The time is no time before it was read. -/
def Reading : Filling Request := fun seen r =>
  (minInt ≤ r.ttl ∧ r.ttl ≤ maxInt) ∧ ("time" ∈ seen → r.time.IsValid) ∧ r.filter.IsReadable 124

/-- Storing a field other than the time keeps what holds of a request. -/
theorem Reading.other {seen : List String} {r r' : Request} {name : String} (h : Reading seen r)
    (hname : "time" ≠ name) (httl : r'.ttl = r.ttl) (htime : r'.time = r.time)
    (hfilter : r'.filter = r.filter) : Reading (name :: seen) r' := by
  obtain ⟨hrange, hvalid, hreadable⟩ := h
  refine ⟨httl ▸ hrange, ?_, hfilter ▸ hreadable⟩
  intro hmem
  rw [htime]
  exact hvalid (List.mem_of_ne_of_mem hname hmem)

theorem time_gives {depth : Nat} : Timestamp.decoder.read.Gives depth Timestamp.IsValid := by
  refine textWith_gives _ ?_
  intro s t h
  cases hparse : Timestamp.parse s with
  | error e =>
    rw [hparse] at h
    cases h
  | ok t' =>
    rw [hparse] at h
    cases h
    exact Timestamp.isValid_of_parse hparse

/-- **What is read as a request is regular**, as an object or as an array. -/
theorem decoder_gives : decoder.read.Gives 128 IsRegular := by
  refine Gives.weaken (record_gives (I := Reading) "Request" ⟨by decide, nofun, nofun, nofun⟩ ?_) ?_
  · intro k hk f hf
    obtain rfl : k = 126 := by omega
    simp only [List.mem_cons, List.not_mem_nil, or_false] at hf
    rcases hf with rfl | rfl | rfl | rfl | rfl | rfl | rfl | rfl | rfl | rfl
    -- in the order of the fields: only the filter, the validity and the time matter
    · exact stores_needed text_gives fun _ _ _ r hr => hr.other (by decide) rfl rfl rfl
    · exact stores_needed text_gives fun _ _ _ r hr => hr.other (by decide) rfl rfl rfl
    · exact stores_needed text_gives fun _ _ _ r hr => hr.other (by decide) rfl rfl rfl
    · exact stores_needed text_gives fun _ _ _ r hr => hr.other (by decide) rfl rfl rfl
    · exact stores_needed raw_gives fun _ _ _ r hr => hr.other (by decide) rfl rfl rfl
    · refine stores_given Filter.decoder_gives fun filter hfilter _ r hr => ?_
      exact ⟨hr.1, fun h => hr.2.1 (List.mem_of_ne_of_mem (by decide) h), hfilter⟩
    · exact stores_needed text_gives fun _ _ _ r hr => hr.other (by decide) rfl rfl rfl
    · exact stores_needed text_gives fun _ _ _ r hr => hr.other (by decide) rfl rfl rfl
    · refine stores_needed (whole_gives _ _ _) fun ttl httl _ r hr => ?_
      exact ⟨httl, fun h => hr.2.1 (List.mem_of_ne_of_mem (by decide) h), hr.2.2⟩
    · exact stores_needed time_gives fun time htime _ r hr => ⟨hr.1, fun _ => htime, hr.2.2⟩
  · rintro r ⟨seen, ⟨httl, htime, hfilter⟩, hneeded⟩
    have hseen : "time" ∈ seen :=
      hneeded (.needed "time" Timestamp.decoder fun r t => { r with time := t }) (by simp) rfl
    exact ⟨httl, htime hseen, hfilter⟩

theorem IsGiven.isRegular {r : Request} (h : r.IsGiven) : r.IsRegular := by
  cases h with
  | read h => exact Json.Reader.of_run_ok decoder_gives h
  | made agent action caller collective id sender data hfilter httl htime =>
    exact ⟨httl, htime, hfilter⟩

/-! ## The value of a request -/

variable {r : Request} {v : Json}

/-- The members of a request as a value, in the order of their names. -/
def members (r : Request) (data : Json) : Table Json := [
  ("action", .string r.action),
  ("agent", .string r.agent),
  ("callerid", .string r.caller),
  ("collective", .string r.collective),
  ("data", data),
  ("filter", r.filter.toJson),
  ("requestid", .string r.id),
  ("senderid", .string r.sender),
  ("time", .string r.time.render),
  ("ttl", .int r.ttl)]

theorem toJson_eq (h : Json.parse r.data = .ok v) : r.toJson = .ok (.object (r.members v)) := by
  unfold toJson
  rw [h]
  simp +decide only [Table.ofList, Table.insert, List.foldl, if_true, if_false]
  rfl

theorem time_readsAs {depth : Nat} {t : Timestamp} (h : t.IsValid) :
    Timestamp.decoder.ReadsAs depth (.string t.render) t :=
  textWith_readsAs _ (by rw [Timestamp.parse_render h]; rfl)

/-- The text of the value of a request is read as the request. Its payload is the text of the value
that the payload had. -/
theorem decoder_readsAs (hregular : r.IsRegular) (hdata : v.IsExact) (hfilter : r.filter.IsExact) :
    decoder.ReadsAs 127 (.object (r.members v)) { r with data := v.render } := by
  obtain ⟨httl, htime, hreadable⟩ := hregular
  have hdistinct : ["action", "agent", "callerid", "collective", "data", "filter", "requestid",
      "senderid", "time", "ttl"].Nodup := by decide
  have hwhole : minInt ≤ r.ttl ∧ r.ttl ≤ Json.maxNat :=
    ⟨httl.1, Int.le_trans httl.2 (by decide)⟩
  refine record_readsAs "Request" ?_ hdistinct rfl
  exact .cons rfl ((text_readsAs r.action).map _) <|
    .cons rfl ((text_readsAs r.agent).map _) <|
    .cons rfl ((text_readsAs r.caller).map _) <|
    .cons rfl ((text_readsAs r.collective).map _) <|
    .cons rfl ((raw_readsAs hdata).map _) <|
    .cons rfl ((Filter.decoder_readsAs hreadable hfilter).map _) <|
    .cons rfl ((text_readsAs r.id).map _) <|
    .cons rfl ((text_readsAs r.sender).map _) <|
    .cons rfl ((time_readsAs htime).map _) <|
    .cons rfl ((whole_readsAs "i64" httl hwhole).map _) <| .nil _

theorem inputs_of_payload {inputs : Table Json} (h : r.payload = .ok inputs) :
    ∃ v, Json.parse r.data = .ok v ∧ Json.IsInputs v inputs := by
  cases hparse : Json.parse r.data with
  | error e =>
    unfold payload at h
    rw [hparse] at h
    cases h
  | ok v =>
    refine ⟨v, rfl, ?_⟩
    by_cases hv : ∃ ms, Json.IsInputs v ms
    · obtain ⟨ms, hms⟩ := hv
      rw [payload_of_inputs hparse hms] at h
      cases h
      exact hms
    · rw [payload_of_other hparse (not_exists.mp hv)] at h
      cases h

/-- **A request comes back from its value.** Of every request whose payload can be used, the value is
written as a text that is read as the same request, but for the text of the payload; its value is the
same value, and the payload in it are the inputs of the script. -/
theorem comes_back (hr : r.IsGiven) {inputs : Table Json} (hinputs : r.payload = .ok inputs)
    (hdata : (Json.object inputs).IsExact) (hfilter : r.filter.IsExact) :
    ∃ rpc text, r.values = .ok (rpc, inputs) ∧
      decoder.parse rpc.render = .ok { r with data := text } ∧
      toJson { r with data := text } = .ok rpc ∧
      (rpc.get? "data" = some (.object inputs) ∨
        Json.parse r.data = .ok .null ∧ rpc.get? "data" = some .null) := by
  obtain ⟨v, hparse, hv⟩ := inputs_of_payload hinputs
  have hexact : v.IsExact := by
    cases hv with
    | object => exact hdata
    | null => exact .null
  -- the payload is read twice more: as a raw text, and as the value that this text spells
  have hagain : Json.parse v.render = .ok v :=
    Json.parse_render (Json.isReadable_of_parse hparse) hexact
  have hread := decoder_readsAs hr.isRegular hexact hfilter
  have hmember : (Json.object (r.members v)).get? "data" = some v := by
    simp +decide only [Json.get?, Json.members, members, Table.get?, if_true, if_false]
  refine ⟨.object (r.members v), v.render, ?_, ?_, ?_, ?_⟩
  · simp only [values, toJson_eq hparse, hinputs]
  · exact hread.parse
  · exact toJson_eq hagain
  · cases hv with
    | object => exact .inl hmember
    | null => exact .inr ⟨hparse, hmember⟩

/-! ## At the limit -/

/-- Arrays inside each other, one more than `n`. -/
def nested : Nat → Json
  | 0 => .array []
  | n + 1 => .array [nested n]

theorem nested_readable (n : Nat) : (nested n).IsReadable (n + 1) := by
  induction n with
  | zero => exact .array nofun
  | succ n ih => exact .array fun v hv => List.mem_singleton.mp hv ▸ ih

theorem nested_exact (n : Nat) : (nested n).IsExact := by
  induction n with
  | zero => exact .array nofun
  | succ n ih => exact .array fun v hv => List.mem_singleton.mp hv ▸ ih

theorem toList_render_nested (n : Nat) : (nested n).render.toList =
    List.replicate (n + 1) '[' ++ List.replicate (n + 1) ']' := by
  induction n with
  | zero => decide
  | succ n ih =>
    have htext : (nested (n + 1)).render.toList = '[' :: ((nested n).render.toList ++ [']']) := by
      rw [nested, Json.toList_render_array]
      simp [Json.joined]
    rw [htext, ih, List.append_assoc, ← List.replicate_succ', List.replicate_succ (n := n + 1)]
    rfl

def sampleInputs : Table Json := [("name", .string "zsh")]

/-- A request in the last second of a leap day long ago, with one entry in its filter. -/
def sample (entry : Json) : Request :=
  { Request.new "package" "status" (.object sampleInputs) "r1" ⟨⟨-44, 2, 29⟩, 86399, 1999999999⟩ with
    filter := ⟨[entry], [], [], [], []⟩ }

theorem sampleInputs_exact : (Json.object sampleInputs).IsExact :=
  .object (fun _ he => List.mem_singleton.mp he ▸ by decide)
    fun _ he => List.mem_singleton.mp he ▸ .string _

theorem sample_data (entry : Json) : Json.parse (sample entry).data = .ok (.object sampleInputs) := by
  have hreadable : (Json.object sampleInputs).IsReadable 127 :=
    .object (List.pairwise_singleton _ _) fun _ he => List.mem_singleton.mp he ▸ .string _ _
  exact Json.parse_render hreadable sampleInputs_exact

theorem sample_filter_exact (n : Nat) : (sample (nested n)).filter.IsExact :=
  ⟨fun _ hv => List.mem_singleton.mp hv ▸ nested_exact n, fun _ hv => nomatch hv⟩

theorem sample_payload (entry : Json) : (sample entry).payload = .ok sampleInputs :=
  payload_of_inputs (sample_data entry) (.object sampleInputs)

/-- The entry of the filter can be nested as deep as that: the request comes back. -/
theorem comes_back_at_limit : (sample (nested 123)).IsGiven ∧
    (sample (nested 123)).payload = .ok sampleInputs ∧ (Json.object sampleInputs).IsExact ∧
    (sample (nested 123)).filter.IsExact ∧
    ∃ rpc text, (sample (nested 123)).values = .ok (rpc, sampleInputs) ∧
      decoder.parse rpc.render = .ok { sample (nested 123) with data := text } ∧
      toJson { sample (nested 123) with data := text } = .ok rpc ∧
      (rpc.get? "data" = some (.object sampleInputs) ∨
        Json.parse (sample (nested 123)).data = .ok .null ∧ rpc.get? "data" = some .null) := by
  have hfilter : (sample (nested 123)).filter.IsReadable 124 :=
    ⟨fun _ hv => List.mem_singleton.mp hv ▸ nested_readable 123, fun _ hv => nomatch hv⟩
  have htime : (sample (nested 123)).time.IsValid := ⟨by decide, by decide, by decide⟩
  have hgiven : (sample (nested 123)).IsGiven :=
    .made "package" "status" "" "" "r1" "" (.object sampleInputs) hfilter (by decide) htime
  have hpayload := sample_payload (nested 123)
  have hexact := sample_filter_exact 123
  exact ⟨hgiven, hpayload, sampleInputs_exact, hexact,
    comes_back hgiven hpayload sampleInputs_exact hexact⟩

/-- With an entry that is nested one level deeper a request has a value, but the text of the value is
no text of a request. -/
theorem deeper_entry_lost : ∃ rpc, (sample (nested 124)).values = .ok (rpc, sampleInputs) ∧
    (Json.object sampleInputs).IsExact ∧ (sample (nested 124)).filter.IsExact ∧
    ∀ back, decoder.parse rpc.render ≠ .ok back := by
  refine ⟨.object ((sample (nested 124)).members (.object sampleInputs)), ?_, sampleInputs_exact,
    sample_filter_exact 124, ?_⟩
  · simp only [values, toJson_eq (sample_data _), sample_payload]
  · have hnone : (decoder.parse (Json.object ((sample (nested 124)).members
        (.object sampleInputs))).render).toOption.isSome = false := by
      -- the text is taken apart into characters first, so that reading it is a short computation
      have hfilter : (sample (nested 124)).filter = ⟨[nested 124], [], [], [], []⟩ := rfl
      unfold Json.Decoder.parse
      rw [Json.Reader.run_eq _ (Json.toList_render_object _)]
      simp only [members, sampleInputs, List.map_cons, List.map_nil, Json.memberText, hfilter,
        Filter.toJson_eq, Json.toList_render_object, Json.toList_render_array,
        toList_render_nested]
      decide +kernel
    intro back h
    rw [h] at hnone
    cases hnone

end Request

end ScriptedActions
