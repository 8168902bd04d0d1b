import Ick.ControlObject
import Ick.ServiceClient
import Ick.ServiceSocket

/-!
# Service calls from end to end

A caller joins the parameters of a service with commas, each encoded by `encodeData`, and the
client sends them in a `RunService` frame. The server splits what it receives at `;` and at
`:`, and the object splits the parameters at `,` and decodes them.

Only `:` and `,` are escaped, all three splits drop blanks, and the one at `:` drops an empty
last field. `Survives` are the parameters that come through in spite of that : they contain no
`;`, no escape, and no blank at a place where one is dropped, none of them is the text `"%"`,
on which decoding throws, and they are not a single empty one (`roundTrips_iff`).

If no parameter contains a `;`, the frame is one message, and the object gets a known piece for
each (`roundTrips_iff_call`, `split_receivedParams`). Otherwise the frame is more than one, but
no piece of any of them contains the `;` that the parameter does (`executesWith_noSemicolon`).
-/

namespace Ick

namespace ServiceClient

/-- The request that a caller makes with these parameters. -/
def request (objectName serviceName : Str) (ps : List Str) : ServiceParam where
  objectName := objectName
  serviceName := serviceName
  param := [','].intercalate (ps.map encodeData)

end ServiceClient

/-- The calls of the log that are made on the object, one after the other. -/
def runCalls (clib : CLib) (objects : ObjectManager) (object : ℕ) :
    List ServiceEvent → ControlObject → Outcome ControlObject
  | [], o => .ok o
  | .send _ :: es, o => runCalls clib objects object es o
  | .call objectName serviceName params :: es, o =>
    if objects.getObject objectName = some (.control object) then
      match o.call clib serviceName params with
      | .ok o => runCalls clib objects object es o
      | outcome => outcome
    else runCalls clib objects object es o

/-- A server whose sends are all accepted, with this registry. -/
def ServiceWorld.online (objects : ObjectManager) : ServiceWorld where
  sends _ _ := true
  objects := objects

/-- When the frame of the request is received in one segment, no exception is thrown, the
service is executed once, and the parameters have the values of the request then. -/
def RoundTrips (clib : CLib) (objects : ObjectManager) (object : ℕ) (s : ServiceServer)
    (o : ControlObject) (objectName serviceName : Str) (paramNames ps : List Str) : Prop :=
  ∃ s' o' values, s.onReceive (.online objects)
      (.bytes (ServiceClient.request objectName serviceName ps).frame) = .next s' ∧
    runCalls clib objects object (s'.log.drop s.log.length) o = .ok o' ∧
    o'.executed = o.executed ++ [(serviceName, values)] ∧
    paramNames.map (ControlObject.stringOf values) = ps.map some

/-- A parameter that comes through : without a semicolon or an escape, not beginning with a
blank, and not the text `"%"`. -/
structure IsPlain (p : Str) : Prop where
  noSemicolon : ';' ∉ p
  head : p.head? ≠ some ' '
  notPercent : p ≠ ['%']
  noEscape : ¬['%', '3', 'A'] <:+: p ∧ ¬['%', '2', 'C'] <:+: p

/-- Parameters that come through together : they are not a single empty one, and the last does
not end with a blank. -/
structure Survives (ps : List Str) : Prop where
  notEmpty : ps ≠ [[]]
  plain : ∀ p ∈ ps, IsPlain p
  last : ∀ p, ps.getLast? = some p → p.getLast? ≠ some ' '

/-- A name in a request : without separators and blanks. -/
structure IsRequestName (name : Str) : Prop where
  noColon : ':' ∉ name
  noSemicolon : ';' ∉ name
  noBlank : ' ' ∉ name

/-! ## One parameter -/

namespace ControlObject

open CmdTarget (dropBlanks)

variable {p : Str}

theorem code_of_ne {c : Char} (hcolon : c ≠ ':') (hcomma : c ≠ ',') : escapes.code c = none := by
  rw [show escapes.code c = code c from rfl, code, if_neg hcolon, if_neg hcomma]

theorem contains_iff : escapes.Contains p ↔ ['%', '3', 'A'] <:+: p ∨ ['%', '2', 'C'] <:+: p := by
  constructor
  · rintro ⟨x, y, c, hc, h⟩
    rcases code_eq_some.1 hc with ⟨-, rfl, rfl⟩ | ⟨-, rfl, rfl⟩
    · exact Or.inl h
    · exact Or.inr h
  · rintro (h | h)
    · exact ⟨'3', 'A', ':', rfl, h⟩
    · exact ⟨'2', 'C', ',', rfl, h⟩

/-- Decoding undoes encoding on the texts without an escape. -/
theorem decodeLoop_encodeData_iff : decodeLoop (ServiceClient.encodeData p) = p ↔
    ¬['%', '3', 'A'] <:+: p ∧ ¬['%', '2', 'C'] <:+: p := by
  rw [decodeLoop_eq, encodeData_eq, Escapes.decode_encode_iff, contains_iff, not_or]

/-- A byte of an encoded text is one of an escape or of the text, and is no colon. -/
theorem mem_encodeData {c : Char} (hc : c ∈ ServiceClient.encodeData p) :
    c ∈ ['%', '3', 'A', '2', 'C'] ∨ (c ∈ p ∧ c ≠ ':') := by
  rw [encodeData_eq] at hc
  rcases Escapes.mem_of_mem_encode hc with ⟨d, x, y, hd, hmem⟩ | ⟨hmem, hnone⟩
  · left
    rcases code_eq_some.1 hd with ⟨-, rfl, rfl⟩ | ⟨-, rfl, rfl⟩ <;>
      · simp only [escapes, List.mem_cons, List.not_mem_nil, or_false] at hmem
        rcases hmem with rfl | rfl | rfl <;> decide
  · refine Or.inr ⟨hmem, ?_⟩
    rintro rfl
    cases hnone

theorem comma_notMem_encodeData : ',' ∉ ServiceClient.encodeData p := by
  intro hc
  rw [encodeData_eq] at hc
  rcases Escapes.mem_of_mem_encode hc with ⟨d, x, y, hd, hmem⟩ | ⟨-, hnone⟩
  · rcases code_eq_some.1 hd with ⟨-, rfl, rfl⟩ | ⟨-, rfl, rfl⟩ <;> revert hmem <;> decide
  · cases hnone

/-- What becomes of a parameter before the last one. -/
theorem piece_iff : (dropBlanks (ServiceClient.encodeData p) ≠ ['%'] ∧
    decodeLoop (dropBlanks (ServiceClient.encodeData p)) = p) ↔
    p.head? ≠ some ' ' ∧ p ≠ ['%'] ∧ ¬['%', '3', 'A'] <:+: p ∧ ¬['%', '2', 'C'] <:+: p := by
  have hblank : escapes.code ' ' = none := code_of_ne (by decide) (by decide)
  by_cases hhead : p.head? = some ' '
  · refine iff_of_false (fun h => ?_) (fun h => h.1 hhead)
    rw [← h.2, decodeLoop_eq] at hhead
    exact CmdTarget.head?_dropBlanks _ (Escapes.head?_decode hhead hblank)
  · have hdrop : dropBlanks (ServiceClient.encodeData p) = ServiceClient.encodeData p := by
      refine CmdTarget.dropBlanks_of_head? fun h => hhead ?_
      rw [encodeData_eq] at h
      exact (Escapes.head?_encode hblank (by decide)).1 h
    have hpercent : ServiceClient.encodeData p = ['%'] ↔ p = ['%'] := by
      rw [encodeData_eq]
      exact Escapes.encode_eq_mark
    rw [hdrop, decodeLoop_encodeData_iff, ne_eq, hpercent]
    exact ⟨fun h => ⟨hhead, h⟩, fun h => h.2⟩

/-- Nothing is dropped behind a text that does not end with a blank. -/
theorem rdropWhile_encodeData (h : p.getLast? ≠ some ' ') :
    (ServiceClient.encodeData p).rdropWhile (· = ' ') = ServiceClient.encodeData p := by
  have hblank : escapes.code ' ' = none := code_of_ne (by decide) (by decide)
  refine Converter.rdropWhile_of_getLast? fun hlast => h ?_
  rw [encodeData_eq] at hlast
  refine (Escapes.getLast?_encode hblank fun c a hc => ?_).1 hlast
  rcases code_eq_some.1 hc with ⟨-, -, heq⟩ | ⟨-, -, heq⟩ <;> exact absurd heq (by decide)

/-- What becomes of the last parameter. -/
theorem lastPiece_iff : (dropBlanks ((ServiceClient.encodeData p).rdropWhile (· = ' ')) ≠ ['%'] ∧
    decodeLoop (dropBlanks ((ServiceClient.encodeData p).rdropWhile (· = ' '))) = p) ↔
    p.getLast? ≠ some ' ' ∧
      p.head? ≠ some ' ' ∧ p ≠ ['%'] ∧ ¬['%', '3', 'A'] <:+: p ∧ ¬['%', '2', 'C'] <:+: p := by
  have hblank : escapes.code ' ' = none := code_of_ne (by decide) (by decide)
  by_cases hlast : p.getLast? = some ' '
  · refine iff_of_false (fun h => ?_) (fun h => h.1 hlast)
    rw [← h.2, decodeLoop_eq] at hlast
    exact Converter.getLast?_rdropWhile _
      (CmdTarget.getLast?_dropBlanks (Escapes.getLast?_decode hlast hblank))
  · rw [rdropWhile_encodeData hlast, piece_iff]
    exact ⟨fun h => ⟨hlast, h⟩, fun h => h.2⟩

end ControlObject

/-! ## A request without semicolons -/

section Request

open CmdTarget (dropBlanks)

variable {objectName serviceName params : Str}

/-- What the handler takes for the parameters, when no `:` and no `;` are among them : without
the blanks at both ends, and if nothing is left, nothing or a lone separator. -/
def receivedParams (serviceName params : Str) : Str :=
  if params.rdropWhile (· = ' ') = [] then if serviceName = [] then [':'] else []
  else dropBlanks (params.rdropWhile (· = ' '))

/-- The message of a request. -/
def requestMessage (objectName serviceName params : Str) : Str :=
  "RunService".toList ++ ':' :: (objectName ++ ':' :: (serviceName ++ ':' :: params))

theorem head?_append_cons {a r : Str} {c : Char} (hc : c ≠ ' ') (ha : ' ' ∉ a) :
    (a ++ c :: r).head? ≠ some ' ' := by
  cases a with
  | nil => simpa using hc
  | cons x a => simpa using fun hx : x = ' ' => ha (hx ▸ List.mem_cons_self)

theorem append_cons_eq_singleton {a r : Str} {c : Char} : a ++ c :: r = [c] ↔ a = [] ∧ r = [] := by
  cases a <;> simp

theorem dropBlanks_ne_nil {q : Str} (hq : q ≠ []) (hlast : q.getLast? ≠ some ' ') :
    dropBlanks q ≠ [] := by
  intro hnil
  have hall := List.dropWhile_eq_nil_iff.1 hnil _ (List.getLast_mem hq)
  rw [decide_eq_true_eq] at hall
  exact hlast (by rw [List.getLast?_eq_some_getLast hq, hall])

/-- The parameters alone, when the handler comes to them. -/
theorem split_params (hcolon : ':' ∉ params) :
    Converter.split (params.rdropWhile (· = ' ')) ':' =
      some (if params.rdropWhile (· = ' ') = [] then []
        else [dropBlanks (params.rdropWhile (· = ' '))]) := by
  generalize hq : params.rdropWhile (· = ' ') = q
  have hlast : q.getLast? ≠ some ' ' := hq ▸ Converter.getLast?_rdropWhile params
  have hcolon' : ':' ∉ q := fun h => hcolon ((List.rdropWhile_prefix _ _).subset (hq ▸ h))
  by_cases hnil : q = []
  · subst hnil
    rfl
  · have htrim := CmdTarget.trim_of_getLast? hlast
    rw [if_neg hnil, Converter.split_of_trim htrim]
    exact Converter.split_of_notMem (fun h => hcolon' (Converter.mem_of_trim htrim h))
      (dropBlanks_ne_nil hnil hlast) (Converter.head?_trim htrim) (Converter.getLast?_trim htrim)

/-- The fields of a message with four, the last of which is read without its blanks. -/
theorem split_message_four {command : Str} (hcommand : ':' ∉ command ∧ ' ' ∉ command)
    (hobject : ':' ∉ objectName ∧ ' ' ∉ objectName) (hnil : objectName ≠ [])
    (hservice : ':' ∉ serviceName ∧ ' ' ∉ serviceName) (hcolon : ':' ∉ params) :
    Converter.split (command ++ ':' :: (objectName ++ ':' :: (serviceName ++ ':' :: params))) ':' =
      some (command :: objectName :: serviceName ::
        if params.rdropWhile (· = ' ') = [] then if serviceName = [] then [[':']] else []
        else [dropBlanks (params.rdropWhile (· = ' '))]) := by
  have hparams := split_params hcolon
  have htrim : Converter.trim
      (command ++ ':' :: (objectName ++ ':' :: (serviceName ++ ':' :: params))) =
      some (command ++ ':' :: (objectName ++ ':' ::
        (serviceName ++ ':' :: params.rdropWhile (· = ' ')))) := by
    rw [Converter.trim_of_head? (head?_append_cons (by decide) hcommand.2),
      Converter.rdropWhile_append_cons (by decide), Converter.rdropWhile_append_cons (by decide),
      Converter.rdropWhile_append_cons (by decide)]
  have hcolon' : ':' ∉ params.rdropWhile (· = ' ') := fun h =>
    hcolon ((List.rdropWhile_prefix _ _).subset h)
  rw [Converter.split_of_trim htrim]
  have hlast := Converter.getLast?_trim htrim
  generalize params.rdropWhile (· = ' ') = q at *
  have hlast₂ := Converter.getLast?_of_append_cons hlast
  have hlast₃ := Converter.getLast?_of_append_cons hlast₂
  have hlast₄ := Converter.getLast?_of_append_cons hlast₃
  have htrim₂ := Converter.trim_of_ends (head?_append_cons (by decide) hobject.2) hlast₂
  have htrim₃ := Converter.trim_of_ends (head?_append_cons (by decide) hservice.2) hlast₃
  -- what stands behind the command
  rw [Converter.split_append_cons_of_trim hcommand.1 (head?_append_cons (by decide) hcommand.2)
    hlast htrim₂ fun heq => hnil (append_cons_eq_singleton.1 heq).1]
  by_cases hlone : serviceName = [] ∧ q = []
  · obtain ⟨rfl, rfl⟩ := hlone
    rw [List.nil_append, Converter.split_append_pattern hobject.1 (by decide)
      (head?_append_cons (by decide) hobject.2)]
    rfl
  · have hlone' : serviceName ++ ':' :: q ≠ [':'] := mt append_cons_eq_singleton.1 hlone
    rw [Converter.split_append_cons_of_trim hobject.1 (head?_append_cons (by decide) hobject.2)
        hlast₂ htrim₃ hlone',
      Converter.split_append_cons_of_trim hservice.1 (head?_append_cons (by decide) hservice.2)
        hlast₃ (CmdTarget.trim_of_getLast? hlast₄) fun heq => hcolon'
          (Converter.mem_of_trim (CmdTarget.trim_of_getLast? hlast₄)
            (heq ▸ List.mem_singleton_self _)), hparams]
    by_cases hq : q = []
    · have hservice' : serviceName ≠ [] := fun h => hlone ⟨h, hq⟩
      simp [hq, hservice']
    · simp [hq]

theorem head?_requestMessage : (requestMessage objectName serviceName params).head? ≠ some ' ' := by
  have hcommand : ' ' ∉ "RunService".toList := by decide
  unfold requestMessage
  generalize "RunService".toList = command at hcommand
  exact head?_append_cons (by decide) hcommand

theorem requestMessage_ne_nil : requestMessage objectName serviceName params ≠ [] :=
  List.append_ne_nil_of_right_ne_nil _ (List.cons_ne_nil _ _)

/-- The message of a request is the call that it asks for. -/
theorem serviceCall_requestMessage (hobject : ':' ∉ objectName ∧ ' ' ∉ objectName)
    (hnil : objectName ≠ []) (hservice : ':' ∉ serviceName ∧ ' ' ∉ serviceName)
    (hcolon : ':' ∉ params) :
    ServiceServer.serviceCall (requestMessage objectName serviceName params) =
      some (objectName, serviceName, receivedParams serviceName params) := by
  have hcommand : ':' ∉ "RunService".toList ∧ ' ' ∉ "RunService".toList := by decide
  unfold ServiceServer.serviceCall requestMessage receivedParams
  rw [split_message_four hcommand hobject hnil hservice hcolon]
  simp only [Option.bind_some, ServiceServer.runService, if_true]
  split_ifs <;> rfl

/-- A frame without another semicolon is one message. -/
theorem split_frame {message : Str} (hsemicolon : ';' ∉ message) (hhead : message.head? ≠ some ' ')
    (hnil : message ≠ []) : Converter.split (message ++ [';']) ';' = some [message] := by
  have hhead' : (message ++ [';']).head? ≠ some ' ' := by
    rwa [List.head?_append_of_ne_nil _ hnil]
  have hlast : (message ++ [';']).getLast? ≠ some ' ' := by
    rw [List.getLast?_concat]
    decide
  have hrest : Converter.trim [] = some [] := rfl
  rw [Converter.split_append_cons_of_trim hsemicolon hhead' hlast hrest (by decide)]
  rfl

variable {objects : ObjectManager} {object : ℕ} {s : ServiceServer}

/-- A message for a service of a control object is answered, and the service is called. -/
theorem handle_message {message : Str}
    (hcall : ServiceServer.serviceCall message = some (objectName, serviceName, params))
    (hobject : objects.getObject objectName = some (.control object)) :
    ∃ answer, s.handle (.online objects) message = .next ((s.logged (.send answer)).logged
      (.call objectName serviceName params)) := by
  obtain ⟨tmp, htmp, hrun⟩ := Option.bind_eq_some_iff.1 hcall
  refine ⟨"RunService:Success:".toList ++ objectName ++ [':'] ++ serviceName ++ [';'], ?_⟩
  unfold ServiceServer.handle
  simp only [htmp, hrun, ServiceWorld.online, if_true, hobject]

theorem onReceive_message (hreader : s.reader = .new) {message : Str}
    (hsemicolon : ';' ∉ message) (hhead : message.head? ≠ some ' ') (hnil : message ≠ [])
    (hzero : '\x00' ∉ message) (hlen : (message ++ [';']).length < 4095)
    (hcall : ServiceServer.serviceCall message = some (objectName, serviceName, params))
    (hobject : objects.getObject objectName = some (.control object)) :
    ∃ s' answer, s.onReceive (.online objects) (.bytes (message ++ [';'])) = .next s' ∧
      s'.log = s.log ++ [.send answer, .call objectName serviceName params] := by
  have hroom : ¬(message ++ [';']).length = s.reader.room := by
    rw [hreader]
    exact hlen.ne
  have hreceive := @ServiceServer.onReceive_bytes (.online objects) s [] (message ++ [';']) _
    (by rw [hreader]; rfl) (by simpa using hzero) (split_frame hsemicolon hhead hnil)
  rw [if_neg hroom, List.take_length, ServiceServer.handleAll] at hreceive
  obtain ⟨answer, hhandle⟩ := @handle_message _ _ _ _ _
    { s with isAlive := true, reader := s.reader.write (message ++ [';']) } _ hcall hobject
  simp only [hhandle] at hreceive
  exact ⟨_, answer, hreceive, by simp [ServiceServer.logged]⟩

/-- The frame of a request. -/
theorem frame_request (objectName serviceName : Str) (ps : List Str) :
    (ServiceClient.request objectName serviceName ps).frame = requestMessage objectName serviceName
      (ServiceClient.request objectName serviceName ps).param ++ [';'] := by
  have hcommand : "RunService:".toList = "RunService".toList ++ [':'] := rfl
  unfold ServiceClient.ServiceParam.frame requestMessage
  rw [hcommand]
  simp only [List.append_assoc, List.cons_append]
  rfl

theorem param_concat (objectName serviceName : Str) (init : List Str) (last : Str) :
    (ServiceClient.request objectName serviceName (init ++ [last])).param =
      (init.map ServiceClient.encodeData).flatMap (· ++ [',']) ++
        ServiceClient.encodeData last := by
  rw [ServiceClient.request, List.map_append, List.map_singleton, Delimited.intercalate_concat]

/-- A byte of the parameters is a comma, or one of an encoded parameter. -/
theorem mem_param {ps : List Str} {c : Char}
    (hc : c ∈ (ServiceClient.request objectName serviceName ps).param) :
    c = ',' ∨ ∃ p ∈ ps, c ∈ ServiceClient.encodeData p := by
  rcases List.eq_nil_or_concat ps with rfl | ⟨init, last, rfl⟩
  · exact absurd hc List.not_mem_nil
  · rw [List.concat_eq_append] at hc ⊢
    rw [param_concat] at hc
    rcases List.mem_append.1 hc with hc | hc
    · obtain ⟨e, he, hce⟩ := List.mem_flatMap.1 hc
      obtain ⟨p, hp, rfl⟩ := List.mem_map.1 he
      rcases List.mem_append.1 hce with hce | hce
      · exact Or.inr ⟨p, List.mem_append_left _ hp, hce⟩
      · exact Or.inl (List.mem_singleton.1 hce)
    · exact Or.inr ⟨last, by simp, hc⟩

/-- A byte that the command, the names and the parameters do not have, and that has no meaning
in a request, is not in the message. -/
theorem notMem_requestMessage {ps : List Str} {c : Char}
    (hc : c ∉ "RunService".toList ++ [':', ',', '%', '3', 'A', '2', 'C'])
    (hobject : c ∉ objectName) (hservice : c ∉ serviceName) (hps : ∀ p ∈ ps, c ∉ p) :
    c ∉ requestMessage objectName serviceName
      (ServiceClient.request objectName serviceName ps).param := by
  have hparam : c ∉ (ServiceClient.request objectName serviceName ps).param := by
    intro hmem
    rcases mem_param hmem with rfl | ⟨p, hp, hmem⟩
    · exact hc (by decide)
    · rcases ControlObject.mem_encodeData hmem with hmem | ⟨hmem, -⟩
      · exact hc (List.mem_append_right _ (List.mem_cons_of_mem _ (List.mem_cons_of_mem _ hmem)))
      · exact hps p hp hmem
  rw [List.mem_append, not_or] at hc
  have hcolon : c ≠ ':' := fun h => hc.2 (h ▸ List.mem_cons_self)
  unfold requestMessage
  generalize "RunService".toList = command at hc
  simp [hc.1, hcolon, hobject, hservice, hparam]

theorem colon_notMem_param (ps : List Str) :
    ':' ∉ (ServiceClient.request objectName serviceName ps).param := by
  intro hmem
  rcases mem_param hmem with h | ⟨p, -, hmem⟩
  · exact absurd h (by decide)
  · rcases ControlObject.mem_encodeData hmem with hmem | ⟨-, h⟩
    · exact absurd hmem (by decide)
    · exact h rfl

variable {clib : CLib} {o : ControlObject} {paramNames ps : List Str}

/-- Without semicolons, the parameters come through exactly if the one call that is made executes
the service with them as the values. -/
theorem roundTrips_iff_call (hreader : s.reader = .new)
    (hobject : objects.getObject objectName = some (.control object))
    (hobjectName : IsRequestName objectName) (hserviceName : IsRequestName serviceName)
    (hzero : '\x00' ∉ objectName ∧ '\x00' ∉ serviceName)
    (hps : ∀ p ∈ ps, ';' ∉ p ∧ '\x00' ∉ p)
    (hlen : (ServiceClient.request objectName serviceName ps).frame.length < 4095) :
    RoundTrips clib objects object s o objectName serviceName paramNames ps ↔
      ∃ o' values, o.call clib serviceName (receivedParams serviceName
          (ServiceClient.request objectName serviceName ps).param) = .ok o' ∧
        o'.executed = o.executed ++ [(serviceName, values)] ∧
        paramNames.map (ControlObject.stringOf values) = ps.map some := by
  have hnil : objectName ≠ [] := by
    rintro rfl
    cases hobject
  have hcall := serviceCall_requestMessage ⟨hobjectName.noColon, hobjectName.noBlank⟩ hnil
    ⟨hserviceName.noColon, hserviceName.noBlank⟩
    (@colon_notMem_param objectName serviceName ps)
  rw [frame_request] at hlen
  obtain ⟨s', answer, hreceive, hlog⟩ := onReceive_message hreader
    (notMem_requestMessage (by decide) hobjectName.noSemicolon hserviceName.noSemicolon
      fun p hp => (hps p hp).1)
    head?_requestMessage requestMessage_ne_nil
    (notMem_requestMessage (by decide) hzero.1 hzero.2 fun p hp => (hps p hp).2) hlen hcall hobject
  have hrun : runCalls clib objects object (s'.log.drop s.log.length) o =
      match o.call clib serviceName (receivedParams serviceName
        (ServiceClient.request objectName serviceName ps).param) with
      | .ok o' => .ok o'
      | outcome => outcome := by
    rw [hlog, List.drop_left]
    simp only [runCalls, hobject, if_true]
  have hcases : ∀ outcome : Outcome ControlObject, (match outcome with
      | .ok o' => Outcome.ok o'
      | outcome => outcome) = outcome := by
    intro outcome
    cases outcome <;> rfl
  rw [hcases] at hrun
  unfold RoundTrips
  rw [frame_request, hreceive, ← hrun]
  constructor
  · rintro ⟨s'', o', values, heq, h⟩
    obtain rfl := Flow.next.inj heq
    exact ⟨o', values, h⟩
  · rintro ⟨o', values, h⟩
    exact ⟨s', o', values, rfl, h⟩

/-- A call executes the service with these texts as the values exactly if they are what the
pieces are decoded to, and decoding no piece throws. -/
theorem call_executes_iff (hdeclares : o.Declares serviceName paramNames)
    (hps : paramNames.length = ps.length) {pieces : List Str}
    (hsplit : CmdTarget.split params ',' = some pieces) :
    (∃ o' values, o.call clib serviceName params = .ok o' ∧
      o'.executed = o.executed ++ [(serviceName, values)] ∧
      paramNames.map (ControlObject.stringOf values) = ps.map some) ↔
    ['%'] ∉ pieces ∧ pieces.map ControlObject.decodeLoop = ps := by
  obtain ⟨hother, hspec⟩ := @ControlObject.call_spec clib _ _ _ hdeclares _ _ hsplit
  by_cases hlen : pieces.length = paramNames.length
  · obtain ⟨hthrows, hok⟩ := hspec hlen
    by_cases hpercent : ['%'] ∈ pieces
    · refine iff_of_false (fun ⟨o', values, hcall, _⟩ => ?_) (fun h => h.1 hpercent)
      obtain ⟨message, o'', hcall'⟩ := hthrows hpercent
      rw [hcall'] at hcall
      cases hcall
    · obtain ⟨values, hcall, hvalues⟩ := hok hpercent
      rw [hcall]
      constructor
      · rintro ⟨o', values', heq, hexecuted, hvalues'⟩
        obtain rfl := Outcome.ok.inj heq
        obtain ⟨-, hrecord⟩ := List.append_inj hexecuted rfl
        obtain rfl := (Prod.mk.inj (List.cons.inj hrecord).1).2
        rw [hvalues', ← List.map_map] at hvalues
        exact ⟨hpercent, (List.map_injective_iff.2 (Option.some_injective _) hvalues).symm⟩
      · rintro ⟨-, hpieces⟩
        refine ⟨_, values, rfl, rfl, ?_⟩
        rw [hvalues, ← hpieces, List.map_map]
  · refine iff_of_false (fun ⟨o', values, hcall, hexecuted, _⟩ => ?_) (fun ⟨_, hpieces⟩ => ?_)
    · obtain rfl := Outcome.ok.inj ((hother hlen).symm.trans hcall)
      exact absurd (congrArg List.length hexecuted) (by simp)
    · rw [hps, ← hpieces, List.length_map] at hlen
      exact hlen rfl

/-- Where something is left of the parameters, the object gets a piece for each. -/
theorem split_receivedParams {init : List Str} {last : Str}
    (hq : (ServiceClient.request objectName serviceName (init ++ [last])).param.rdropWhile
      (· = ' ') ≠ []) :
    CmdTarget.split (receivedParams serviceName
        (ServiceClient.request objectName serviceName (init ++ [last])).param) ',' =
      some (init.map (dropBlanks ∘ ServiceClient.encodeData) ++
        [dropBlanks ((ServiceClient.encodeData last).rdropWhile (· = ' '))]) := by
  rw [receivedParams, if_neg hq]
  rw [param_concat] at hq ⊢
  generalize hl : init.map ServiceClient.encodeData = l at hq ⊢
  have hrdrop : (l.flatMap (· ++ [',']) ++ ServiceClient.encodeData last).rdropWhile (· = ' ') =
      l.flatMap (· ++ [',']) ++ (ServiceClient.encodeData last).rdropWhile (· = ' ') := by
    rcases List.eq_nil_or_concat l with rfl | ⟨l, e, rfl⟩
    · rfl
    · rw [List.concat_eq_append, List.flatMap_append, List.flatMap_singleton, ← List.append_assoc,
        List.append_assoc, List.singleton_append, Converter.rdropWhile_append_cons (by decide)]
      simp
  have hcomma : ∀ e ∈ l, ',' ∉ e := by
    intro e he
    rw [← hl] at he
    obtain ⟨p, -, rfl⟩ := List.mem_map.1 he
    exact ControlObject.comma_notMem_encodeData
  have hlastcomma : ',' ∉ (ServiceClient.encodeData last).rdropWhile (· = ' ') := fun h =>
    ControlObject.comma_notMem_encodeData ((List.rdropWhile_prefix _ _).subset h)
  have hlast := Converter.getLast?_rdropWhile
    (l.flatMap (· ++ [',']) ++ ServiceClient.encodeData last)
  rw [CmdTarget.split_eq (by decide) (dropBlanks_ne_nil hq hlast)
    (CmdTarget.trim_of_getLast? fun h => hlast (CmdTarget.getLast?_dropBlanks h)),
    CmdTarget.map_dropBlanks_splitOn (by decide), CmdTarget.map_dropBlanks_splitOn (by decide),
    hrdrop, Delimited.splitOn_flatMap_append hcomma hlastcomma, ← hl]
  simp

theorem map_pieces_iff {f g : Str → Str} {init : List Str} {last x : Str} :
    (['%'] ∉ init.map f ++ [x] ∧ (init.map f ++ [x]).map g = init ++ [last]) ↔
      (∀ p ∈ init, f p ≠ ['%'] ∧ g (f p) = p) ∧ x ≠ ['%'] ∧ g x = last := by
  have hmap : (init.map f).map g = init ↔ ∀ p ∈ init, g (f p) = p := by
    rw [List.map_map]
    exact (Eq.congr_right (List.map_id init).symm).trans List.map_inj_left
  have happend : (init.map f ++ [x]).map g = init ++ [last] ↔
      (init.map f).map g = init ∧ g x = last := by
    rw [List.map_append, List.map_singleton]
    constructor
    · intro h
      obtain ⟨hinit, hlast⟩ := List.append_inj' h rfl
      exact ⟨hinit, (List.cons.inj hlast).1⟩
    · rintro ⟨hinit, hlast⟩
      rw [hinit, hlast]
  have hpercent : ['%'] ∉ init.map f ++ [x] ↔ (∀ p ∈ init, f p ≠ ['%']) ∧ x ≠ ['%'] := by
    simp [eq_comm]
  rw [happend, hmap, hpercent]
  constructor
  · rintro ⟨⟨hf, hx⟩, hg, hlast⟩
    exact ⟨fun p hp => ⟨hf p hp, hg p hp⟩, hx, hlast⟩
  · rintro ⟨h, hx, hlast⟩
    exact ⟨⟨fun p hp => (h p hp).1, hx⟩, fun p hp => (h p hp).2, hlast⟩

theorem isPlain_iff {p : Str} (hp : ';' ∉ p) : IsPlain p ↔ p.head? ≠ some ' ' ∧ p ≠ ['%'] ∧
    ¬['%', '3', 'A'] <:+: p ∧ ¬['%', '2', 'C'] <:+: p :=
  ⟨fun h => ⟨h.head, h.notPercent, h.noEscape⟩, fun h => ⟨hp, h.1, h.2.1, h.2.2⟩⟩

/-- What survives of parameters without semicolons. -/
theorem survives_iff_pieces {init : List Str} {last : Str} (hps : ∀ p ∈ init ++ [last], ';' ∉ p) :
    Survives (init ++ [last]) ↔ init ++ [last] ≠ [[]] ∧
      (∀ p ∈ init, dropBlanks (ServiceClient.encodeData p) ≠ ['%'] ∧
        ControlObject.decodeLoop (dropBlanks (ServiceClient.encodeData p)) = p) ∧
      dropBlanks ((ServiceClient.encodeData last).rdropWhile (· = ' ')) ≠ ['%'] ∧
      ControlObject.decodeLoop
        (dropBlanks ((ServiceClient.encodeData last).rdropWhile (· = ' '))) = last := by
  have hinit : (∀ p ∈ init, dropBlanks (ServiceClient.encodeData p) ≠ ['%'] ∧
      ControlObject.decodeLoop (dropBlanks (ServiceClient.encodeData p)) = p) ↔
      ∀ p ∈ init, IsPlain p := forall₂_congr fun p hp =>
    ControlObject.piece_iff.trans (isPlain_iff (hps p (List.mem_append_left _ hp))).symm
  rw [hinit, ControlObject.lastPiece_iff, ← isPlain_iff (hps last (by simp))]
  constructor
  · intro h
    exact ⟨h.notEmpty, fun p hp => h.plain p (List.mem_append_left _ hp),
      h.last last List.getLast?_concat, h.plain last (by simp)⟩
  · rintro ⟨hnil, hplain, hlast, hplainLast⟩
    refine ⟨hnil, fun p hp => ?_, fun p hp => ?_⟩
    · rcases List.mem_append.1 hp with hp | hp
      · exact hplain p hp
      · rwa [List.mem_singleton.1 hp]
    · rw [List.getLast?_concat, Option.some.injEq] at hp
      rwa [← hp]

/-- The call that is made for parameters without semicolons executes the service with them
exactly if they survive. -/
theorem call_survives_iff (hdeclares : o.Declares serviceName paramNames)
    (hlen : paramNames.length = ps.length) (hne : ps ≠ []) (hps : ∀ p ∈ ps, ';' ∉ p) :
    (∃ o' values, o.call clib serviceName (receivedParams serviceName
          (ServiceClient.request objectName serviceName ps).param) = .ok o' ∧
        o'.executed = o.executed ++ [(serviceName, values)] ∧
        paramNames.map (ControlObject.stringOf values) = ps.map some) ↔ Survives ps := by
  rcases List.eq_nil_or_concat ps with rfl | ⟨init, last, rfl⟩
  · exact absurd rfl hne
  rw [List.concat_eq_append] at hlen hps ⊢
  by_cases hq : (ServiceClient.request objectName serviceName (init ++ [last])).param.rdropWhile
      (· = ' ') = []
  · -- nothing is left of a single parameter of blanks
    have hall : ∀ c ∈ (ServiceClient.request objectName serviceName (init ++ [last])).param,
        c = ' ' := fun c hc => of_decide_eq_true (List.rdropWhile_eq_nil_iff.1 hq c hc)
    rw [param_concat] at hall
    obtain rfl : init = [] := by
      cases init with
      | nil => rfl
      | cons p init => exact absurd (hall ',' (by simp)) (by decide)
    have hlast : (ServiceClient.encodeData last).rdropWhile (· = ' ') = [] :=
      List.rdropWhile_eq_nil_iff.2 fun c hc => decide_eq_true (hall c hc)
    have hsurvives : ¬Survives ([] ++ [last]) := by
      intro h
      rw [ControlObject.rdropWhile_encodeData (h.last last rfl), ControlObject.encodeData_eq,
        Escapes.encode_eq_nil] at hlast
      exact h.notEmpty (by rw [hlast]; rfl)
    refine iff_of_false ?_ hsurvives
    rw [receivedParams, if_pos hq]
    split_ifs
    · rw [call_executes_iff hdeclares hlen (show _ = some [[':']] from rfl)]
      rintro ⟨-, hpieces⟩
      obtain rfl : [':'] = last := (List.cons.inj hpieces).1
      exact absurd (hall '%' (by decide)) (by decide)
    · rw [call_executes_iff hdeclares hlen (CmdTarget.split_nil ',')]
      rintro ⟨-, hpieces⟩
      cases hpieces
  · rw [call_executes_iff hdeclares hlen (split_receivedParams hq), map_pieces_iff,
      survives_iff_pieces hps]
    refine (and_iff_right fun heq => ?_).symm
    rw [heq] at hq
    exact hq rfl

end Request

/-! ## A request with semicolons or zero bytes -/

section Received

variable {world : ServiceWorld} {s s' : ServiceServer}

/-- The bytes of a call that a piece asks for are bytes of the piece. -/
theorem mem_of_serviceCall {data objectName serviceName params : Str}
    (h : ServiceServer.serviceCall data = some (objectName, serviceName, params)) {c : Char}
    (hc : c ∈ serviceName ∨ c ∈ params) : c ∈ data := by
  obtain ⟨tmp, htmp, hrun⟩ := Option.bind_eq_some_iff.1 h
  match tmp, hrun with
  | command :: object :: service :: rest, hrun =>
    rw [ServiceServer.runService] at hrun
    split_ifs at hrun
    obtain ⟨-, rfl, rfl⟩ :
        object = objectName ∧ service = serviceName ∧ rest.headD [] = params := by
      simpa using hrun
    rcases hc with hc | hc
    · exact (Converter.split_fields htmp (by simp)).1 c hc
    · cases rest with
      | nil => exact absurd hc List.not_mem_nil
      | cons params rest => exact (Converter.split_fields htmp (by simp)).1 c hc

/-- The calls among the events are asked for by these pieces. -/
def AskedBy (datas : List Str) (events : List ServiceEvent) : Prop :=
  ∀ objectName serviceName params, .call objectName serviceName params ∈ events →
    ∃ data ∈ datas, ServiceServer.serviceCall data = some (objectName, serviceName, params)

theorem askedBy_nil (datas : List Str) : AskedBy datas [] :=
  fun _ _ _ h => absurd h List.not_mem_nil

/-- What the handler does about a piece. -/
theorem log_handle {data : Str}
    (h : s.handle world data = .next s' ∨ s.handle world data = .brk s') :
    ∃ events, s'.log = s.log ++ events ∧ AskedBy [data] events := by
  unfold ServiceServer.handle at h
  cases hsplit : Converter.split data ':' with
  | none => simp [hsplit] at h
  | some tmp =>
    simp only [hsplit] at h
    cases hrun : ServiceServer.runService tmp with
    | none =>
      simp only [hrun, Flow.next.injEq, reduceCtorEq, or_false] at h
      exact ⟨[], by rw [← h, List.append_nil], askedBy_nil _⟩
    | some call =>
      obtain ⟨objectName, serviceName, params⟩ := call
      simp only [hrun] at h
      have hcall : ServiceServer.serviceCall data = some (objectName, serviceName, params) := by
        rw [ServiceServer.serviceCall, hsplit, Option.bind_some, hrun]
      split_ifs at h
      · split at h
        · simp only [Flow.next.injEq, reduceCtorEq, or_false] at h
          refine ⟨_, by rw [← h]; exact List.append_assoc _ _ _, fun _ _ _ hmem => ?_⟩
          obtain ⟨rfl, rfl, rfl⟩ := by simpa using hmem
          exact ⟨data, List.mem_singleton_self _, hcall⟩
        · simp only [Flow.next.injEq, reduceCtorEq, or_false] at h
          exact ⟨_, by rw [← h]; rfl, fun _ _ _ hmem => absurd hmem (by simp)⟩
      · simp only [Flow.brk.injEq, false_or] at h
        exact ⟨[], by rw [← h, List.append_nil], askedBy_nil _⟩

/-- What the handler does about the pieces. -/
theorem log_handleAll {len : ℕ} {last : Str} {datas : List Str} : ∀ {s : ServiceServer},
    ServiceServer.handleAll world len last datas s = .next s' →
    ∃ events, s'.log = s.log ++ events ∧ AskedBy datas events := by
  induction datas with
  | nil =>
    intro s h
    rw [← Flow.next.inj h]
    exact ⟨[], (List.append_nil _).symm, askedBy_nil _⟩
  | cons data datas ih =>
    intro s h
    rw [ServiceServer.handleAll] at h
    cases hhandle : s.handle world data with
    | next s'' =>
      simp only [hhandle] at h
      obtain ⟨events, hlog, hevents⟩ := log_handle (Or.inl hhandle)
      obtain ⟨events', hlog', hevents'⟩ := ih h
      refine ⟨events ++ events', by rw [hlog', ← List.append_assoc, ← hlog], ?_⟩
      intro objectName serviceName params hmem
      rcases List.mem_append.1 hmem with hmem | hmem
      · obtain ⟨d, hd, hcall⟩ := hevents _ _ _ hmem
        exact ⟨d, by rw [List.mem_singleton.1 hd]; exact List.mem_cons_self, hcall⟩
      · obtain ⟨d, hd, hcall⟩ := hevents' _ _ _ hmem
        exact ⟨d, List.mem_cons_of_mem _ hd, hcall⟩
    | brk s'' =>
      simp only [hhandle, Flow.next.injEq] at h
      obtain ⟨events, hlog, hevents⟩ := log_handle (Or.inr hhandle)
      refine ⟨events, by rw [← h, hlog], fun objectName serviceName params hmem => ?_⟩
      obtain ⟨d, hd, hcall⟩ := hevents _ _ _ hmem
      exact ⟨d, by rw [List.mem_singleton.1 hd]; exact List.mem_cons_self, hcall⟩
    | ret s'' => simp [hhandle] at h
    | crash => simp [hhandle] at h

/-- The calls made for a segment are asked for by pieces of its bytes up to the first zero
byte, and no piece contains a semicolon. -/
theorem log_onReceive {data : Str} (hreader : s.reader = .new)
    (h : s.onReceive world (.bytes data) = .next s') :
    ∃ events datas, s'.log = s.log ++ events ∧ AskedBy datas events ∧
      Converter.split (data.takeWhile (· ≠ '\x00')) ';' = some datas := by
  have htext : (s.reader.write data).text = data.takeWhile (· ≠ '\x00') := by
    rw [hreader]
    simp [Reader.write, Reader.new, Reader.text]
  simp only [ServiceServer.onReceive, receive, ServiceServer.round, htext] at h
  cases hsplit : Converter.split (data.takeWhile (· ≠ '\x00')) ';' with
  | none => simp only [hsplit, reduceCtorEq] at h
  | some datas =>
    simp only [hsplit] at h
    obtain ⟨events, hlog, hevents⟩ := log_handleAll h
    refine ⟨events, datas, hlog, fun objectName serviceName params hmem => ?_, rfl⟩
    obtain ⟨d, hd, hcall⟩ := hevents _ _ _ hmem
    exact ⟨d, List.mem_of_mem_take hd, hcall⟩

/-- On an object with this declaration, the calls among the events execute services only with
values that have a property. -/
def ExecutesWith (clib : CLib) (serviceName : Str) (paramNames : List Str)
    (P : Str → Std.TreeMap Str ParamValue → Prop) (events : List ServiceEvent) : Prop :=
  ∀ (o o' : ControlObject) values (objectName name params : Str),
    .call objectName name params ∈ events → o.Declares serviceName paramNames →
    o.call clib name params = .ok o' → o'.executed = o.executed ++ [(name, values)] →
    P name values

/-- What is executed when the calls are made one after the other. -/
theorem runCalls_ok {clib : CLib} {objects : ObjectManager} {object : ℕ} {serviceName : Str}
    {paramNames : List Str} {P : Str → Std.TreeMap Str ParamValue → Prop}
    {events : List ServiceEvent} (hevents : ExecutesWith clib serviceName paramNames P events) :
    ∀ {o o' : ControlObject}, o.Declares serviceName paramNames →
    runCalls clib objects object events o = .ok o' →
    ∃ records, o'.executed = o.executed ++ records ∧ ∀ r ∈ records, P r.1 r.2 := by
  induction events with
  | nil =>
    intro o o' _ h
    rw [← Outcome.ok.inj h]
    exact ⟨[], (List.append_nil _).symm, fun r hr => absurd hr List.not_mem_nil⟩
  | cons e es ih =>
    intro o o' hdeclares h
    have hrest : ExecutesWith clib serviceName paramNames P es :=
      fun o o' values objectName name params hmem =>
        hevents o o' values objectName name params (List.mem_cons_of_mem _ hmem)
    cases e with
    | send data => exact ih hrest hdeclares h
    | call objectName name params =>
      rw [runCalls] at h
      split_ifs at h
      · cases hcall : o.call clib name params with
        | ok o₁ =>
          simp only [hcall] at h
          rcases ControlObject.call_ok hcall with heq | ⟨values, heq⟩
          · exact ih hrest hdeclares (heq ▸ h)
          · -- the call leaves the declarations as they are
            have hdeclares₁ : o₁.Declares serviceName paramNames := by
              rw [heq]
              exact ⟨by simp [hdeclares.service], hdeclares.declared, hdeclares.nodup⟩
            have hexecuted : o₁.executed = o.executed ++ [(name, values)] := by rw [heq]
            obtain ⟨records, hrecords, hP⟩ := ih hrest hdeclares₁ h
            refine ⟨(name, values) :: records, ?_, fun r hr => ?_⟩
            · rw [hrecords, hexecuted, List.append_assoc, List.singleton_append]
            · rcases List.mem_cons.1 hr with rfl | hr
              · exact hevents o o₁ values objectName name params List.mem_cons_self hdeclares hcall
                  hexecuted
              · exact hP r hr
        | throws message o₁ => simp [hcall] at h
        | crash => simp [hcall] at h
      · exact ih hrest hdeclares h

variable {clib : CLib} {objects : ObjectManager} {object : ℕ} {o : ControlObject}
  {objectName serviceName : Str} {paramNames ps : List Str}

/-- A call whose parameters contain no semicolon stores no value with one. -/
theorem executesWith_noSemicolon {datas : List Str} {events : List ServiceEvent}
    (hevents : AskedBy datas events)
    (hdatas : ∀ data ∈ datas, ';' ∉ data ∨ data = [';']) :
    ExecutesWith clib serviceName paramNames (fun name values => name = serviceName →
      ∀ p, some p ∈ paramNames.map (ControlObject.stringOf values) → ';' ∉ p) events := by
  rintro o o' values objectName _ params hmem hdeclares hcall hexecuted rfl p hp hsemicolon
  obtain ⟨data, hdata, hasked⟩ := hevents _ _ _ hmem
  have hnot : ';' ∉ params := by
    rcases hdatas data hdata with hdata | rfl
    · exact fun h => hdata (mem_of_serviceCall hasked (Or.inr h))
    · rw [ServiceServer.serviceCall_semicolon] at hasked
      cases hasked
  obtain ⟨pieces, hsplit⟩ : ∃ pieces, CmdTarget.split params ',' = some pieces := by
    refine Option.ne_none_iff_exists'.1 fun hnone => ?_
    rw [ControlObject.call_of_split_eq_none hdeclares hnone] at hcall
    cases hcall
  obtain ⟨hother, hspec⟩ := @ControlObject.call_spec clib _ _ _ hdeclares _ _ hsplit
  by_cases hlen : pieces.length = paramNames.length
  · obtain ⟨hthrows, hok⟩ := hspec hlen
    by_cases hpercent : ['%'] ∈ pieces
    · obtain ⟨message, o'', hcall'⟩ := hthrows hpercent
      rw [hcall'] at hcall
      cases hcall
    · obtain ⟨values', hcall', hvalues⟩ := hok hpercent
      obtain rfl := Outcome.ok.inj (hcall'.symm.trans hcall)
      obtain ⟨-, hrecord⟩ := List.append_inj hexecuted rfl
      obtain rfl := (Prod.mk.inj (List.cons.inj hrecord).1).2
      rw [hvalues] at hp
      obtain ⟨piece, hpiece, heq⟩ := List.mem_map.1 hp
      obtain rfl := Option.some.inj heq
      rw [ControlObject.decodeLoop_eq] at hsemicolon
      rcases Escapes.mem_of_mem_decode hsemicolon with h | h
      · exact h (ControlObject.code_of_ne (by decide) (by decide))
      · exact hnot (CmdTarget.mem_of_mem_split (by decide) hsplit hpiece h)
  · obtain rfl := Outcome.ok.inj ((hother hlen).symm.trans hcall)
    exact absurd (congrArg List.length hexecuted) (by simp)

/-- Where parameters come through, the pieces of the frame up to its first zero byte ask for a
call that executes the service with them as the values. -/
theorem RoundTrips.executes (h : RoundTrips clib objects object s o objectName serviceName
    paramNames ps) (hreader : s.reader = .new) (hdeclares : o.Declares serviceName paramNames) :
    ∃ events datas values, AskedBy datas events ∧
      Converter.split ((ServiceClient.request objectName serviceName ps).frame.takeWhile
        (· ≠ '\x00')) ';' = some datas ∧
      (∀ P, ExecutesWith clib serviceName paramNames P events → P serviceName values) ∧
      paramNames.map (ControlObject.stringOf values) = ps.map some := by
  obtain ⟨s', o', values, hreceive, hrun, hexecuted, hvalues⟩ := h
  obtain ⟨events, datas, hlog, hevents, hsplit⟩ := log_onReceive hreader hreceive
  rw [hlog, List.drop_left] at hrun
  refine ⟨events, datas, values, hevents, hsplit, fun P hP => ?_, hvalues⟩
  obtain ⟨records, hrecords, hrecord⟩ := runCalls_ok hP hdeclares hrun
  obtain rfl := List.append_cancel_left (hexecuted.symm.trans hrecords)
  exact hrecord _ (List.mem_singleton_self _)

/-- A frame with a parameter that contains a semicolon. -/
theorem not_roundTrips_of_semicolon (hreader : s.reader = .new)
    (hdeclares : o.Declares serviceName paramNames) (hps : ∃ p ∈ ps, ';' ∈ p) :
    ¬RoundTrips clib objects object s o objectName serviceName paramNames ps := by
  intro h
  obtain ⟨events, datas, values, hevents, hsplit, hP, hvalues⟩ := h.executes hreader hdeclares
  obtain ⟨p, hp, hsemicolon⟩ := hps
  refine hP _ (executesWith_noSemicolon hevents fun data hdata =>
    (Converter.split_fields hsplit hdata).2.1) rfl p ?_ hsemicolon
  rw [hvalues]
  exact List.mem_map_of_mem hp

/-- A frame with a zero byte in the name of the service. -/
theorem not_roundTrips_of_zero_serviceName (hreader : s.reader = .new)
    (hdeclares : o.Declares serviceName paramNames) (hzero : '\x00' ∈ serviceName) :
    ¬RoundTrips clib objects object s o objectName serviceName paramNames ps := by
  intro h
  obtain ⟨events, datas, values, hevents, hsplit, hP, -⟩ := h.executes hreader hdeclares
  refine hP (fun name _ => '\x00' ∉ name) ?_ hzero
  intro o o' values objectName name params hmem _ _ _ hname
  obtain ⟨data, hdata, hasked⟩ := hevents _ _ _ hmem
  have htext := (Converter.split_fields hsplit hdata).1 _
    (mem_of_serviceCall hasked (Or.inl hname))
  exact absurd (List.mem_takeWhile_imp htext) (by simp)

/-- A text with one colon asks for nothing. -/
theorem serviceCall_two {a b : Str} (ha : ':' ∉ a ∧ ' ' ∉ a) (hb : ':' ∉ b ∧ ' ' ∉ b) :
    ServiceServer.serviceCall (a ++ ':' :: b) = none := by
  have hblank : ' ' ∉ a ++ ':' :: b := by simp [ha.2, hb.2]
  rw [ServiceServer.serviceCall, Converter.split_of_noBlank hblank,
    List.splitOn_append_cons_self_of_not_mem ha.1, List.splitOn_eq_singleton hb.1, Option.bind_some]
  by_cases hnil : b = [] <;> simp [Converter.tidy, ServiceServer.runService, hnil]

/-- A frame with a zero byte in the name of the object : what is read ends in it, and there is
no name of a service. -/
theorem not_roundTrips_of_zero_objectName (hreader : s.reader = .new)
    (hdeclares : o.Declares serviceName paramNames) (hobjectName : IsRequestName objectName)
    (hzero : '\x00' ∈ objectName) :
    ¬RoundTrips clib objects object s o objectName serviceName paramNames ps := by
  intro h
  obtain ⟨events, datas, values, hevents, hsplit, hP, -⟩ := h.executes hreader hdeclares
  obtain ⟨a, r, rfl, ha⟩ := List.eq_append_cons_of_mem hzero
  have hcommand : (':' ∉ "RunService".toList ∧ ' ' ∉ "RunService".toList) ∧
      ';' ∉ "RunService".toList ∧ '\x00' ∉ "RunService".toList := by decide
  have hsub : ∀ c ∈ a, c ∈ a ++ '\x00' :: r := fun c hc => List.mem_append_left _ hc
  have hname : ':' ∉ a ∧ ' ' ∉ a ∧ ';' ∉ a :=
    ⟨fun h => hobjectName.noColon (hsub _ h), fun h => hobjectName.noBlank (hsub _ h),
      fun h => hobjectName.noSemicolon (hsub _ h)⟩
  rw [frame_request] at hsplit
  unfold requestMessage at hsplit
  generalize "RunService".toList = command at hcommand hsplit
  -- what stands in front of the zero byte
  have htext : (command ++ ':' :: (a ++ '\x00' :: r ++ ':' :: (serviceName ++ ':' ::
      (ServiceClient.request (a ++ '\x00' :: r) serviceName ps).param)) ++ [';']).takeWhile
        (· ≠ '\x00') = command ++ ':' :: a := by
    have hfront : '\x00' ∉ command ++ ':' :: a := by simp [hcommand, ha]
    simpa using Converter.takeWhile_append_cons hfront (r ++ ':' :: (serviceName ++ ':' ::
      (ServiceClient.request (a ++ '\x00' :: r) serviceName ps).param) ++ [';'])
  have hsemicolon : ';' ∉ command ++ ':' :: a := by simp [hcommand, hname]
  have hblank : ' ' ∉ command ++ ':' :: a := by simp [hcommand, hname]
  obtain ⟨hhead, hlast⟩ := Converter.ends_of_noBlank hblank
  rw [htext, Converter.split_of_notMem hsemicolon
    (List.append_ne_nil_of_right_ne_nil _ (List.cons_ne_nil _ _)) hhead hlast] at hsplit
  obtain rfl := Option.some.inj hsplit
  refine hP (fun _ _ => False) ?_
  intro o o' values objectName name params hmem _ _ _
  obtain ⟨data, hdata, hasked⟩ := hevents _ _ _ hmem
  rw [List.mem_singleton.1 hdata, serviceCall_two hcommand.1 ⟨hname.1, hname.2.1⟩] at hasked
  cases hasked

/-- The calls of services from end to end. When the service is declared with as many string
parameters as there are texts, of which none contains a zero byte, and the frame is shorter than
the buffer, the texts come through exactly if no name contains a zero byte and the texts
survive. -/
theorem roundTrips_iff (hreader : s.reader = .new)
    (hobject : objects.getObject objectName = some (.control object))
    (hdeclares : o.Declares serviceName paramNames)
    (hobjectName : IsRequestName objectName) (hserviceName : IsRequestName serviceName)
    (hlen : paramNames.length = ps.length) (hne : ps ≠ []) (hps : ∀ p ∈ ps, '\x00' ∉ p)
    (hframe : (ServiceClient.request objectName serviceName ps).frame.length < 4095) :
    RoundTrips clib objects object s o objectName serviceName paramNames ps ↔
      ('\x00' ∉ objectName ∧ '\x00' ∉ serviceName) ∧ Survives ps := by
  by_cases hzero : '\x00' ∉ objectName ∧ '\x00' ∉ serviceName
  · rw [and_iff_right hzero]
    by_cases hsemicolon : ∀ p ∈ ps, ';' ∉ p
    · rw [roundTrips_iff_call hreader hobject hobjectName hserviceName hzero
        (fun p hp => ⟨hsemicolon p hp, hps p hp⟩) hframe,
        call_survives_iff hdeclares hlen hne hsemicolon]
    · refine iff_of_false ?_ fun h => hsemicolon fun p hp => (h.plain p hp).noSemicolon
      exact not_roundTrips_of_semicolon hreader hdeclares (by simpa using hsemicolon)
  · refine iff_of_false (fun h => ?_) fun h => hzero h.1
    by_cases hobjectZero : '\x00' ∈ objectName
    · exact not_roundTrips_of_zero_objectName hreader hdeclares hobjectName hobjectZero h
    · refine not_roundTrips_of_zero_serviceName hreader hdeclares ?_ h
      by_contra hserviceZero
      exact hzero ⟨hobjectZero, hserviceZero⟩

end Received

/-- A registry with a control object `/a`. -/
def objects_a : ObjectManager :=
  { ObjectManager.new with entites := Std.TreeMap.insertIfNew ∅ "/a".toList 0 }

/-- An object whose service `b` is declared with a string parameter `x`. -/
def object_b : ControlObject where
  className := "C".toList
  serviceMap := Std.TreeMap.insert ∅ "C".toList
    [ServiceInfo.ofStrings "b".toList ["x".toList]]
  services := Std.TreeMap.insert ∅ "b".toList ∅
  executed := []

theorem declares_b : object_b.Declares "b".toList ["x".toList] :=
  ⟨Std.TreeMap.mem_insert_self, ⟨_, Std.TreeMap.getElem?_insert_self, rfl⟩, by decide⟩

theorem isRequestName_ab : IsRequestName "/a".toList ∧ IsRequestName "b".toList :=
  ⟨⟨by decide, by decide, by decide⟩, ⟨by decide, by decide, by decide⟩⟩

theorem roundTrips_y : RoundTrips Update.clib_zero objects_a 0 (.new false) object_b "/a".toList
    "b".toList ["x".toList] ["y".toList] := by
  have hiff := @roundTrips_iff (.new false) Update.clib_zero objects_a 0 object_b "/a".toList
    "b".toList ["x".toList] ["y".toList] rfl (by decide) declares_b isRequestName_ab.1
    isRequestName_ab.2 rfl (by decide) (by decide) (by decide)
  refine hiff.2 ⟨by decide, by decide, fun p hp => ?_, fun p hp => ?_⟩
  · rw [List.mem_singleton.1 hp]
    exact ⟨by decide, by decide, by decide, by decide⟩
  · obtain rfl := Option.some.inj hp
    decide

/-- Decoding the text `"%"` throws. -/
theorem not_roundTrips_percent : ¬∀ clib objects object s o objectName serviceName paramNames ps,
    s.reader = .new → objects.getObject objectName = some (.control object) →
    o.Declares serviceName paramNames → IsRequestName objectName → IsRequestName serviceName →
    ',' ∉ objectName → ',' ∉ serviceName → paramNames.length = ps.length → ps ≠ [] →
    (∀ p ∈ ps, '\x00' ∉ p) →
    (ServiceClient.request objectName serviceName ps).frame.length < 4095 →
    RoundTrips clib objects object s o objectName serviceName paramNames ps := by
  intro h
  have hround := h Update.clib_zero objects_a 0 (.new false) object_b "/a".toList "b".toList
    ["x".toList] [['%']] rfl (by decide) declares_b isRequestName_ab.1 isRequestName_ab.2
    (by decide) (by decide) rfl (by decide) (by decide) (by decide)
  rw [roundTrips_iff_call rfl (by decide) isRequestName_ab.1 isRequestName_ab.2 (by decide)
    (by decide) (by decide)] at hround
  have hsurvives := (call_survives_iff declares_b (by rfl) (by decide) (by decide)).1 hround
  exact (hsurvives.plain ['%'] (List.mem_singleton_self _)).notPercent rfl

end Ick
