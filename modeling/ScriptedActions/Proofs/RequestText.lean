import ScriptedActions.Proofs.JsonPassing
import ScriptedActions.Proofs.RoundTrip

/-!
# A request in writing, and back

What was read as a request is written as a text that is read as the same request
(`Request.parse_written`). Other than in the value that a script sees, the payload stands in this
text as it came: with its blanks, the order of its members, members of one name, and numbers and
escapes that are no values at all.

The payload is never decoded here, so nothing can be said of its value. What carries it over is that
it was found in a text: whatever was passed over as a value is spelled by the grammar
(`Json.Reader.gives_rawText`), and what the grammar spells is passed over again, up to the same
place (`Json.Decoder.raw_makes`).
-/

set_option autoImplicit false

namespace ScriptedActions

open Json (Spells joined)
open Json.Reader (Gives)
open Json.Decoder (Filling FillsFrom Makes writtenMember record_gives record_makes_written raw_makes
  stores_needed stores_given text_gives whole_gives text_readsAs whole_readsAs)

/-! ## Objects in writing -/

theorem Json.joined_eq_intercalate (ts : List (List Char)) :
    joined true ts = [','].intercalate ts := by
  induction ts with
  | nil => rfl
  | cons t ts ih =>
    cases ts with
    | nil => simp [joined]
    | cons u ts =>
      rw [List.intercalate_cons_cons, ← ih]
      simp [joined]

namespace Request

theorem toList_objectText (ms : List (String × String)) : (objectText ms).toList =
    '\x7b' :: (joined true ((ms.map fun m => (m.1, m.2.toList)).map writtenMember) ++ ['\x7d']) := by
  have hmember (m : String × String) :
      (memberText m.1 m.2).toList = writtenMember (m.1, m.2.toList) := by
    simp [memberText, writtenMember]
  unfold objectText
  rw [String.toList_append, String.toList_append, String.toList_intercalate, List.map_map,
    List.map_map, Json.joined_eq_intercalate]
  simp only [Function.comp_def, hmember]
  rfl

end Request

theorem Filter.written_makes {f : Filter} {depth : Nat} (hreadable : f.IsReadable depth)
    (hexact : f.IsExact) : decoder.Makes
      (Request.objectText (f.members.map fun m => (m.1, m.2.render))).toList (depth + 2) (some f) := by
  obtain ⟨hfact, hcompound⟩ := hreadable
  obtain ⟨hfact', hcompound'⟩ := hexact
  have hdistinct : ["fact", "cf_class", "agent", "identity", "compound"].Nodup := by decide
  rw [Request.toList_objectText]
  refine record_makes_written "Filter" ?_ hdistinct rfl
  exact .cons rfl ((values_readsAs hfact hfact').map _) <|
    .cons rfl ((texts_readsAs f.configClass).map _) <|
    .cons rfl ((texts_readsAs f.agent).map _) <|
    .cons rfl ((texts_readsAs f.identity).map _) <|
    .cons rfl ((values_readsAs hcompound hcompound').map _) <| .nil _

namespace Request

variable {r : Request}

/-! ## The payload -/

/-- What holds of the payload while the members of a request are read, once there is one. -/
def Quoting : Filling Request := fun seen r => "data" ∈ seen → ∃ t, Spells t r.data.toList

theorem Quoting.other {seen : List String} {r r' : Request} {name : String} (h : Quoting seen r)
    (hname : "data" ≠ name) (hdata : r'.data = r.data) : Quoting (name :: seen) r' := by
  intro hmem
  rw [hdata]
  exact h (List.mem_of_ne_of_mem hname hmem)

/-- The payload of a request that was read is the text of a value, without blanks around it. -/
theorem decoder_gives_data : decoder.read.Gives 128 fun r => ∃ t, Spells t r.data.toList := by
  refine Gives.weaken (record_gives (I := Quoting) "Request" nofun ?_) ?_
  · intro k hk f hf
    obtain rfl : k = 126 := by omega
    simp only [List.mem_cons, List.not_mem_nil, or_false] at hf
    rcases hf with rfl | rfl | rfl | rfl | rfl | rfl | rfl | rfl | rfl | rfl
    · exact stores_needed text_gives fun _ _ _ r hr => hr.other (by decide) rfl
    · exact stores_needed text_gives fun _ _ _ r hr => hr.other (by decide) rfl
    · exact stores_needed text_gives fun _ _ _ r hr => hr.other (by decide) rfl
    · exact stores_needed text_gives fun _ _ _ r hr => hr.other (by decide) rfl
    · exact stores_needed Json.Reader.gives_rawText fun data hdata _ r _ _ => hdata
    · exact stores_given Filter.decoder_gives fun _ _ _ r hr => hr.other (by decide) rfl
    · exact stores_needed text_gives fun _ _ _ r hr => hr.other (by decide) rfl
    · exact stores_needed text_gives fun _ _ _ r hr => hr.other (by decide) rfl
    · exact stores_needed (whole_gives _ _ _) fun _ _ _ r hr => hr.other (by decide) rfl
    · exact stores_needed time_gives fun _ _ _ r hr => hr.other (by decide) rfl
  · rintro r ⟨seen, hdata, hneeded⟩
    have hseen : "data" ∈ seen :=
      hneeded (.needed "data" .raw fun r s => { r with data := s }) (by simp) rfl
    exact hdata hseen

/-! ## The text of a request -/

/-- A regular request is read from its text, if its payload is the text of any value. -/
theorem written_makes (hregular : r.IsRegular) (hdata : ∃ t, Spells t r.data.toList)
    (hfilter : r.filter.IsExact) : decoder.Makes r.render.toList 127 (some r) := by
  obtain ⟨httl, htime, hreadable⟩ := hregular
  obtain ⟨t, ht⟩ := hdata
  have hraw : Json.Decoder.raw.Makes r.data.toList 126 (some r.data) := by
    have hmakes : Json.Decoder.raw.Makes r.data.toList 126 (some (String.ofList r.data.toList)) :=
      raw_makes ht
    rwa [String.ofList_toList] at hmakes
  have hwhole : Json.minInt ≤ r.ttl ∧ r.ttl ≤ Json.maxNat :=
    ⟨httl.1, Int.le_trans httl.2 (by decide)⟩
  have hdistinct : ["agent", "action", "callerid", "collective", "data", "filter", "requestid",
      "senderid", "ttl", "time"].Nodup := by decide
  unfold render
  rw [toList_objectText]
  refine record_makes_written "Request" ?_ hdistinct rfl
  exact .cons rfl ((text_readsAs r.agent).map _) <|
    .cons rfl ((text_readsAs r.action).map _) <|
    .cons rfl ((text_readsAs r.caller).map _) <|
    .cons rfl ((text_readsAs r.collective).map _) <|
    .cons rfl (hraw.map _) <|
    .cons rfl ((Filter.written_makes hreadable hfilter).map _) <|
    .cons rfl ((text_readsAs r.id).map _) <|
    .cons rfl ((text_readsAs r.sender).map _) <|
    .cons rfl ((whole_readsAs "i64" httl hwhole).map _) <|
    .cons rfl ((time_readsAs htime).map _) <| .nil _

/-- **A request that was read is the request that its text is read as**, in every field, if the
texts of the values in its filter tell them exactly. -/
theorem parse_written {text : String} (h : decoder.parse text = .ok r)
    (hfilter : r.filter.IsExact) : decoder.parse r.render = .ok r := by
  have hregular : r.IsRegular := Json.Reader.of_run_ok decoder_gives h
  have hdata : ∃ t, Spells t r.data.toList :=
    Json.Reader.of_run_ok (P := fun r : Request => ∃ t, Spells t r.data.toList) decoder_gives_data h
  exact (written_makes hregular hdata hfilter).parse

/-- A payload that is no value: an escape in it is half a character, and a number is too large. -/
def wireData : String := "\x7b\"n\":\"\\ud800\", \"n\" : 1e999\x7d"

/-- A request as it can come: an array, with blanks around such a payload, and in a leap second. -/
def wireText : String :=
  "[\"package\",\"status\",\"\",\"\", " ++ wireData ++
    " ,\x7b\"fact\":[\"os\"]\x7d,\"r1\",\"\",60,\"2016-12-31T23:59:60.000000001Z\"]"

/-- It comes back, although its payload cannot be decoded. -/
theorem parse_written_undecodable : ∃ r, decoder.parse wireText = .ok r ∧ r.filter.IsExact ∧
    r.data = wireData ∧ r.payload.toOption.isNone ∧ decoder.parse r.render = .ok r := by
  have hread : (decoder.parse wireText).toOption.any (fun r =>
      r.filter.fact.all (·.text?.isSome) && r.filter.compound.isEmpty && r.data == wireData &&
        r.payload.toOption.isNone) = true := by decide +kernel
  obtain ⟨r, hr, htest⟩ := Option.any_eq_true .. |>.mp hread
  have hparse : decoder.parse wireText = .ok r := by
    cases hresult : decoder.parse wireText with
    | error e => rw [hresult] at hr; cases hr
    | ok r' => rw [hresult] at hr; cases hr; rfl
  simp only [Bool.and_eq_true, List.all_eq_true, List.isEmpty_iff, beq_iff_eq] at htest
  obtain ⟨⟨⟨hfact, hcompound⟩, hdata⟩, hpayload⟩ := htest
  have hfilter : r.filter.IsExact := by
    refine ⟨fun v hv => ?_, fun v hv => ?_⟩
    · cases v with
      | string s => exact .string s
      | _ => exact absurd (hfact _ hv) Bool.false_ne_true
    · rw [hcompound] at hv
      cases hv
  exact ⟨r, hparse, hfilter, hdata, hpayload, parse_written hparse hfilter⟩

end Request

end ScriptedActions
