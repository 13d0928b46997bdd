import ScriptedActions.Proofs.Dispatch
import ScriptedActions.Proofs.DecodedOrder

/-!
# Requests whose members are in another order

A request is read twice: the message as a record, of which the payload is kept as a text, and that
text when the request is prepared. In both the order of members is lost, but not at the same time:
of two messages whose members are in different orders the requests that are read are different, as
the texts of their payloads are (`Request.Alike`). They are the same only once they are prepared.

So whatever a script is given does not depend on the order of members, and neither does what comes
of it.
-/

set_option autoImplicit false

namespace ScriptedActions

open Json (IsText Reorders Tree Piece)
open Json.Decoder (Respects Lifted Apart Field Agree)

/-- Errors of one kind, and about one binding if they are about a binding. The reason that they give
to readers may be another one: it tells the place of a fault in a text. -/
inductive DispatchError.Alike : DispatchError → DispatchError → Prop
  | same (e : DispatchError) : Alike e e
  | binding (name reason reason' : String) : Alike (.binding name reason) (.binding name reason')

namespace Filter

theorem decoder_respects : decoder.Respects Eq := by
  have hstored {β : Type} {d : Json.Decoder β} (store : Filter → β → Filter) (hd : d.Respects Eq) :
      (d.map fun b f => store f b).Respects (Lifted Eq) := by
    refine Json.Decoder.stored_respects hd ?_
    rintro b _ rfl f _ rfl
    rfl
  have hlist {β : Type} {d : Json.Decoder β} (hd : d.Respects Eq) :
      (Json.Decoder.list d).Respects Eq := by
    have h := Json.Decoder.list_respects hd
    rwa [List.forall₂_eq_eq_eq] at h
  refine Json.Decoder.record_respects "Filter" rfl ?_ ?_
  · simp only [List.forall_mem_cons]
    and_intros
    · exact hstored _ (hlist Json.Decoder.value_respects)
    · exact hstored _ (hlist Json.Decoder.textWith_respects)
    · exact hstored _ (hlist Json.Decoder.textWith_respects)
    · exact hstored _ (hlist Json.Decoder.textWith_respects)
    · exact hstored _ (hlist Json.Decoder.value_respects)
    · exact List.forall_mem_nil _
  · simp only [List.pairwise_cons, List.forall_mem_cons]
    and_intros
    all_goals first
      | exact Json.Decoder.apart_of_stores fun _ _ _ => rfl
      | exact List.forall_mem_nil _
      | exact .nil

end Filter

namespace Request

/-- Requests that differ in the text of their payload alone, and not in what is read from it. -/
def Alike (r r' : Request) : Prop := ∃ data, Agree r.data data ∧ r' = { r with data := data }

/-- A field is stored apart from the payload. -/
theorem stored_alike {β : Type} {d : Json.Decoder β} {store : Request → β → Request}
    (hd : d.Respects Eq)
    (hstore : ∀ r b data, store { r with data := data } b = { store r b with data := data })
    (hkept : ∀ r b, (store r b).data = r.data) :
    (d.map fun b r => store r b).Respects (Lifted Alike) := by
  refine Json.Decoder.stored_respects hd ?_
  rintro b _ rfl r _ ⟨data, hdata, rfl⟩
  exact ⟨data, by rwa [hkept], hstore r b data⟩

/-- **Two texts of requests, with their members in different orders, are texts of requests that are
alike**, or neither is the text of a request. -/
theorem decoder_respects : decoder.Respects Alike := by
  have htext {store : Request → String → Request}
      (hstore : ∀ r b data, store { r with data := data } b = { store r b with data := data })
      (hkept : ∀ r b, (store r b).data = r.data) :
      (Json.Decoder.text.map fun b r => store r b).Respects (Lifted Alike) :=
    stored_alike Json.Decoder.textWith_respects hstore hkept
  refine Json.Decoder.record_respects "Request" ⟨_, rfl, rfl⟩ ?_ ?_
  · simp only [List.forall_mem_cons]
    and_intros
    · exact htext (fun _ _ _ => rfl) fun _ _ => rfl
    · exact htext (fun _ _ _ => rfl) fun _ _ => rfl
    · exact htext (fun _ _ _ => rfl) fun _ _ => rfl
    · exact htext (fun _ _ _ => rfl) fun _ _ => rfl
    · refine Json.Decoder.stored_respects Json.Decoder.raw_respects ?_
      rintro data data' hdata r _ ⟨_, -, rfl⟩
      exact ⟨data', hdata, rfl⟩
    · exact stored_alike Filter.decoder_respects (fun _ _ _ => rfl) fun _ _ => rfl
    · exact htext (fun _ _ _ => rfl) fun _ _ => rfl
    · exact htext (fun _ _ _ => rfl) fun _ _ => rfl
    · exact stored_alike Json.Decoder.whole_respects (fun _ _ _ => rfl) fun _ _ => rfl
    · exact stored_alike Json.Decoder.textWith_respects (fun _ _ _ => rfl) fun _ _ => rfl
    · exact List.forall_mem_nil _
  · simp only [List.pairwise_cons, List.forall_mem_cons]
    and_intros
    all_goals first
      | exact Json.Decoder.apart_of_stores fun _ _ _ => rfl
      | exact List.forall_mem_nil _
      | exact .nil

/-! ## Preparation -/

theorem values_alike {r r' : Request} (h : r.Alike r') :
    r.values = r'.values ∨ ∃ e e', r.values = .error e ∧ r'.values = .error e' ∧ e.Alike e' := by
  obtain ⟨data, hdata, rfl⟩ := h
  unfold Agree at hdata
  cases hr : Json.parse r.data with
  | error e =>
    cases hr' : Json.parse data with
    | error e' =>
      right
      refine ⟨.binding "rpc" e.message, .binding "rpc" e'.message, ?_, ?_, .binding _ _ _⟩
      · simp only [values, toJson, hr]
        rfl
      · simp only [values, toJson, hr']
        rfl
    | ok v =>
      rw [hr, hr'] at hdata
      cases hdata
  | ok v =>
    cases hr' : Json.parse data with
    | error e' =>
      rw [hr, hr'] at hdata
      cases hdata
    | ok v' =>
      rw [hr, hr'] at hdata
      cases hdata
      left
      simp only [values, toJson, payload, hr, hr']

theorem prepare_alike {r r' : Request} (h : r.Alike r') (c : Catalog) :
    r.prepare c = r'.prepare c ∨
      ∃ e e', r.prepare c = .error e ∧ r'.prepare c = .error e' ∧ e.Alike e' := by
  have hnames : r.agent = r'.agent ∧ r.action = r'.action := by
    obtain ⟨data, -, rfl⟩ := h
    exact ⟨rfl, rfl⟩
  rcases values_alike h with hsame | ⟨e, e', hr, hr', he⟩
  · left
    rw [prepare, prepare, hsame, hnames.1, hnames.2]
  · right
    refine ⟨e, e', ?_, ?_, he⟩
    · rw [prepare, hr]
    · rw [prepare, hr']

/-- Once requests are prepared alike, nothing tells them apart. -/
theorem dispatch_alike {r r' : Request} (h : r.Alike r') {d : Dispatcher}
    (hprepare : r.prepare d.catalog = r'.prepare d.catalog) (files : Files) (c : Context)
    (ts : Tokens) (now : Nat) (s : Schedule) :
    d.dispatch files c ts now s r = d.dispatch files c ts now s r' := by
  obtain ⟨data, -, rfl⟩ := h
  unfold Dispatcher.dispatch
  rw [hprepare]
  rfl

/-- **The order of members does not matter.** Let two texts differ in nothing but blanks and the
order of the members of objects, at any depth. Then neither is the text of a request, or both are.
Of two texts of requests, whatever the catalog is, the requests are prepared as the same values for
a script and dispatched alike; or the preparation of both fails, with errors of one kind about one
binding. -/
theorem prepare_reordered {t u : Tree} {text text' : String} (h : Reorders t u)
    (ht : IsText t text) (hu : IsText u text') (c : Catalog) :
    ((∃ e, decoder.parse text = .error e) ∧ ∃ e, decoder.parse text' = .error e) ∨
    ∃ r r', decoder.parse text = .ok r ∧ decoder.parse text' = .ok r' ∧
      ((∃ schema b, r.prepare c = .ok (schema, b) ∧ r'.prepare c = .ok (schema, b) ∧
        ∀ (d : Dispatcher) (files : Files) (ctx : Context) (ts : Tokens) (now : Nat) (s : Schedule),
          d.catalog = c → d.dispatch files ctx ts now s r = d.dispatch files ctx ts now s r') ∨
      ∃ e e', r.prepare c = .error e ∧ r'.prepare c = .error e' ∧ e.Alike e') := by
  have hread := decoder_respects.parse h ht hu
  cases hr : decoder.parse text with
  | error e =>
    left
    cases hr' : decoder.parse text' with
    | error e' => exact ⟨⟨e, rfl⟩, e', rfl⟩
    | ok r' =>
      rw [hr, hr'] at hread
      cases hread
  | ok r =>
    cases hr' : decoder.parse text' with
    | error e' =>
      rw [hr, hr'] at hread
      cases hread
    | ok r' =>
      rw [hr, hr'] at hread
      cases hread with
      | some halike =>
        refine .inr ⟨r, r', rfl, rfl, ?_⟩
        rcases prepare_alike halike c with hsame | hfails
        · cases hp : r.prepare c with
          | error e => exact .inr ⟨e, e, rfl, hsame.symm.trans hp, .same e⟩
          | ok p =>
            left
            obtain ⟨schema, b⟩ := p
            refine ⟨schema, b, rfl, hsame.symm.trans hp, ?_⟩
            rintro d files ctx ts now s rfl
            exact dispatch_alike halike hsame files ctx ts now s
        · exact .inr hfails

/-! ## A request and its members in the reverse order -/

/-- The characters of a text, each of which stands for itself. -/
def letters (s : String) : List Piece := s.toList.map .plain

def isPlain (s : String) : Bool := s.toList.all fun c => c != '"' && c != '\\' && 0x20 ≤ c.toNat

/-- A member with its name, its value and the text of its value. -/
abbrev Told : Type := String × Tree × List Char

def Told.member (m : Told) : List Piece × Tree := (letters m.1, m.2.1)

def Told.IsSpelled (m : Told) : Prop := isPlain m.1 ∧ Json.Spells m.2.1 m.2.2

/-- Members as they are written, with blanks behind the commas and around the colons. -/
def toldText (blanks : List Char) : Bool → List Told → List Char
  | _, [] => []
  | first, m :: ms => (if first then [] else ',' :: blanks) ++
    ((Json.quoted (letters m.1) ++ (blanks ++ ':' :: (blanks ++ m.2.2))) ++
      toldText blanks false ms)

def toldObject (blanks : List Char) (ms : List Told) : List Char :=
  '\x7b' :: (toldText blanks true ms ++ ['\x7d'])

theorem unescape_letters (cs : List Char) : Json.unescape (cs.map Piece.plain) = some cs := by
  induction cs with
  | nil => rfl
  | cons c cs ih =>
    rw [List.map_cons, Json.unescape, ih]
    rfl

theorem distinct_told {ms : List Told} (h : (ms.map Prod.fst).Nodup) :
    Json.Distinct (ms.map Told.member) := by
  refine List.pairwise_map.mpr ((List.pairwise_map.mp h).imp fun hne cs hcs hsame => hne ?_)
  rw [Told.member, letters, unescape_letters] at hcs hsame
  exact String.toList_inj.mp (Option.some.inj (hcs.trans hsame.symm))

theorem letters_wellFormed {s : String} (h : isPlain s) : ∀ p ∈ letters s, p.WellFormed := by
  intro p hp
  obtain ⟨c, hc, rfl⟩ := List.mem_map.mp hp
  have hplain := List.all_eq_true.mp h c hc
  simp only [Bool.and_eq_true, bne_iff_ne, decide_eq_true_eq, and_assoc] at hplain
  exact hplain

section blanks

variable {blanks : List Char} (hblanks : Json.Blanks blanks) {ms : List Told}
  (h : ∀ m ∈ ms, m.IsSpelled)
include hblanks h

theorem spells_told (first : Bool) :
    Json.SpellsMembers first (ms.map Told.member) (toldText blanks first ms) := by
  induction ms generalizing first with
  | nil => exact .nil nofun
  | cons m ms ih =>
    obtain ⟨hname, hvalue⟩ := h m (.head _)
    refine .cons ?_ (.intro (letters_wellFormed hname) hblanks hblanks hvalue)
      (ih (fun n hn => h n (.tail _ hn)) false)
    cases first with
    | true => exact .first nofun
    | false => exact .next (b := []) nofun hblanks

theorem isText_told :
    IsText (.object (ms.map Told.member)) (String.ofList (toldObject blanks ms)) :=
  ⟨[], _, [], nofun, .object (spells_told hblanks h true), nofun, by simp [toldObject]⟩

end blanks

/-- Members whose values are strings. -/
def toldStrings (es : List (String × String)) : List Told :=
  es.map fun e => (e.1, .string (letters e.2), Json.quoted (letters e.2))

theorem toldStrings_spelled {es : List (String × String)}
    (h : es.all fun e => isPlain e.1 && isPlain e.2) : ∀ m ∈ toldStrings es, m.IsSpelled := by
  intro m hm
  obtain ⟨e, he, rfl⟩ := List.mem_map.mp hm
  obtain ⟨hname, hvalue⟩ := Bool.and_eq_true_iff.mp (List.all_eq_true.mp h e he)
  exact ⟨hname, .string (letters_wellFormed hvalue)⟩

def sixty : Json.Literal := ⟨false, ['6', '0'], none, none⟩

/-- The members of a request for the action `look`. -/
def toldRequest (blanks : List Char) (inputs : List Told) : List Told :=
  toldStrings [("agent", "probe"), ("action", "look"), ("callerid", ""), ("collective", "")] ++
    ([("data", .object (inputs.map Told.member), toldObject blanks inputs),
      ("ttl", .number sixty, sixty.text)] ++
    toldStrings [("requestid", ""), ("senderid", ""), ("time", "2024-05-01T10:00:00Z")])

theorem toldRequest_spelled {blanks : List Char} (hblanks : Json.Blanks blanks)
    {inputs : List Told} (h : ∀ m ∈ inputs, m.IsSpelled) :
    ∀ m ∈ toldRequest blanks inputs, m.IsSpelled := by
  have hsixty : sixty.WellFormed :=
    ⟨by simp [sixty, Json.Reader.isDigit], by decide, by decide, nofun, nofun⟩
  refine List.forall_mem_append.mpr ⟨toldStrings_spelled (by decide +kernel), ?_⟩
  refine List.forall_mem_append.mpr ⟨?_, toldStrings_spelled (by decide +kernel)⟩
  simp only [List.forall_mem_cons]
  have hdata : isPlain "data" := by decide +kernel
  have httl : isPlain "ttl" := by decide +kernel
  exact ⟨⟨hdata, .object (spells_told hblanks h true)⟩, ⟨httl, .number hsixty⟩,
    List.forall_mem_nil _⟩

def toldInputs : List Told := toldStrings [("a", "x"), ("b", "y")]

theorem toldInputs_spelled : ∀ m ∈ toldInputs, m.IsSpelled :=
  toldStrings_spelled (by decide +kernel)

def forwards : List Told := toldRequest [] toldInputs

/-- The same members in the reverse order, and so are those of the payload. -/
def backwards : List Told := (toldRequest [' '] toldInputs.reverse).reverse

theorem reorders_backwards :
    Reorders (.object (forwards.map Told.member)) (.object (backwards.map Told.member)) := by
  have hinputs : Reorders (.object (toldInputs.map Told.member))
      (.object (toldInputs.reverse.map Told.member)) :=
    .object (distinct_told (by decide +kernel)) ((List.reverse_perm _).map _).symm
      (.cons (.string _) (.cons (.string _) .nil))
  refine .object (distinct_told (by decide +kernel)) ((List.reverse_perm _).map _).symm ?_
  exact .cons (.string _) <| .cons (.string _) <| .cons (.string _) <| .cons (.number _) <|
    .cons hinputs <| .cons (.string _) <| .cons (.string _) <| .cons (.string _) <|
    .cons (.string _) .nil

def forwardsText : String := String.ofList (toldObject [] forwards)

def backwardsText : String := String.ofList (toldObject [' '] backwards)

theorem isText_forwards : IsText (.object (forwards.map Told.member)) forwardsText := by
  have hblanks : Json.Blanks [] := nofun
  exact isText_told hblanks (toldRequest_spelled hblanks toldInputs_spelled)

theorem isText_backwards : IsText (.object (backwards.map Told.member)) backwardsText := by
  have hblanks : Json.Blanks [' '] := by simp [Json.Blanks, Json.Reader.isBlank]
  refine isText_told hblanks fun m hm => ?_
  refine toldRequest_spelled hblanks (fun m hm => ?_) m (List.mem_reverse.mp hm)
  exact toldInputs_spelled m (List.mem_reverse.mp hm)

/-- The texts of the payloads are different, and the scripts are given the same. -/
theorem prepare_reordered_backwards :
    Reorders (.object (forwards.map Told.member)) (.object (backwards.map Told.member)) ∧
    IsText (.object (forwards.map Told.member)) forwardsText ∧
    IsText (.object (backwards.map Told.member)) backwardsText ∧
    ∃ r r' schema b, decoder.parse forwardsText = .ok r ∧ decoder.parse backwardsText = .ok r' ∧
      r.data ≠ r'.data ∧ r.prepare Dispatcher.probe.catalog = .ok (schema, b) ∧
      r'.prepare Dispatcher.probe.catalog = .ok (schema, b) ∧
      ∀ (files : Files) (c : Context) (ts : Tokens) (now : Nat) (s : Schedule),
        Dispatcher.probe.dispatch files c ts now s r =
          Dispatcher.probe.dispatch files c ts now s r' := by
  have hprepared : (decoder.parse forwardsText).toOption.any
      (fun r => (r.prepare Dispatcher.probe.catalog).toOption.isSome) = true := by
    decide +kernel
  have hdata : (decoder.parse forwardsText).toOption.map Request.data ≠
      (decoder.parse backwardsText).toOption.map Request.data := by decide +kernel
  refine ⟨reorders_backwards, isText_forwards, isText_backwards, ?_⟩
  rcases prepare_reordered reorders_backwards isText_forwards isText_backwards
      Dispatcher.probe.catalog with
    ⟨⟨e, he⟩, -⟩ | ⟨r, r', hr, hr', ⟨schema, b, hp, hp', hd⟩ | ⟨e, _, he, -⟩⟩
  · rw [he] at hprepared
    cases hprepared
  · rw [hr, hr'] at hdata
    exact ⟨r, r', schema, b, hr, hr', fun hsame => hdata (congrArg some hsame), hp, hp',
      fun files c ts now s => hd Dispatcher.probe files c ts now s rfl⟩
  · rw [hr] at hprepared
    simp only [Except.toOption, Option.any_some, he] at hprepared
    cases hprepared

end Request

end ScriptedActions
