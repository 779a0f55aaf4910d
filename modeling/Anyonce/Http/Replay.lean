import Mathlib.Data.List.Dedup
import Mathlib.Data.List.Sort
import Anyonce.Core.Table
import Anyonce.Http.Scope

/-!
# Stored headers and replayed responses

`storedHeaders` and `replayResponse` of `packages/core/src/http/capture.ts`.  Headers are those of the Fetch
standard: iteration shows each name once, in lower case, with its values joined by a comma and a space, except
that the values of `Set-Cookie` stay apart; `append` strips the white space at the ends of a value.

So a header that is stored is one joined value, and what is replayed is that value stripped.  The two differ
exactly for a repeated header whose last value is empty: the space of its last separator goes.

* `Headers.entries`, `Headers.append`, `Headers.set` — the part of `Headers` that is used.
* `storedHeaders`, `replayResponse` — the code.
* `get_replayed` — what a replay shows under each name.
* `replayResponse_iff` — when a replay is the response again.
-/

namespace Anyonce

open Unicode (trim Stripped trim_eq_iff)

/-! ## The code -/

/-- A legal value: the units that `append` refuses are not in it. -/
def Legal (value : JsString) : Prop := ∀ u ∈ value, u ≤ 0xff ∧ u ≠ 0x00 ∧ u ≠ 0x0a ∧ u ≠ 0x0d

instance : DecidablePred Legal := fun value =>
  decidable_of_iff (value.all fun u => u ≤ 0xff ∧ u ≠ 0x00 ∧ u ≠ 0x0a ∧ u ≠ 0x0d) List.all_iff_forall_prop

/-- A value as `append` keeps it, without the white space at its ends; `none` where `append` throws. -/
def HeaderValue.ofUnits (value : JsString) : Option HeaderValue :=
  if h : Legal (trim isHttpWhitespace value) then
    some ⟨trim isHttpWhitespace value, h, trim_eq_iff.mpr
      { split := ⟨[], [], by simp, by simp, by simp⟩
        first := (trim_eq_iff.mp rfl).first
        last := (trim_eq_iff.mp rfl).last }⟩
  else none

namespace Headers

variable (headers : Headers)

/-- The names of a list in lower case, each once and in order. -/
def names : List JsString := (headers.list.map fun e => byteLowercase e.1).dedup.insertionSort (· ≤ ·)

/-- What an iteration of `Headers` gives: the names with their joined values, and every `Set-Cookie` on its
own. -/
def entries : List (JsString × JsString) :=
  headers.names.flatMap fun name =>
    if name = js "set-cookie" then (headers.fields name).map fun value => (name, value)
    else (headers.get name).toList.map fun value => (name, value)

/-- `append`; `none` where it throws, for a name or a value that no header has. -/
def append (name value : JsString) : Option Headers :=
  if IsHeaderName name then (HeaderValue.ofUnits value).map fun value => ⟨headers.list ++ [(name, value)]⟩
  else none

/-- `new Headers(fields)`: one `append` after another. -/
def ofFields (fields : List (JsString × JsString)) : Option Headers :=
  fields.foldlM (fun headers field => headers.append field.1 field.2) ⟨[]⟩

/-- `set` in a list: the first field with the name gets the value, and the others go. -/
def setList (name : JsString) (value : HeaderValue) : List (JsString × HeaderValue) → List (JsString × HeaderValue)
  | [] => [(name, value)]
  | e :: rest =>
      if byteLowercase e.1 = byteLowercase name then
        (e.1, value) :: rest.filter fun e' => byteLowercase e'.1 ≠ byteLowercase name
      else e :: setList name value rest

/-- `set`, with a name and a value that a header may have. -/
def set (name : JsString) (value : HeaderValue) : Headers := ⟨setList name value headers.list⟩

end Headers

/-- REQ-HTTP-8: the allowlisted headers, named in lower case by the iteration of `Headers`; `Set-Cookie` is
dropped whatever the allowlist says. -/
def storedHeaders (headers : Headers) (allow : List JsString) : List (JsString × JsString) :=
  headers.entries.filter fun field => field.1 ≠ js "set-cookie" && allow.contains field.1

/-- `NULL_BODY_STATUS`: responses with these statuses have no body. -/
def nullBodyStatus : List ℤ := [204, 205, 304]

/-- What a client sees of a response: the status, the headers, and the body if there is one. -/
structure Response where
  status : ℤ
  headers : Headers
  body : Option (List UInt8)

/-- `new Response(body, { status, headers })`; `none` where it throws. -/
def newResponse (body : Option (List UInt8)) (status : ℤ) (headers : Headers) : Option Response :=
  if status < 200 ∨ 599 < status then none
  else if body ≠ none ∧ status ∈ nullBodyStatus then none
  else some ⟨status, headers, body⟩

/-- The value `true`. -/
def headerTrue : HeaderValue := ⟨js "true", List.all_iff_forall_prop.mp (by decide +kernel), rfl⟩

/-- The value `omitted`. -/
def headerOmitted : HeaderValue := ⟨js "omitted", List.all_iff_forall_prop.mp (by decide +kernel), rfl⟩

/-- REQ-HTTP-9 and D12; `none` where it throws. -/
def replayResponse (record : IdempotencyRecord) : Option Response := do
  let result := record.result
  let status := (result.bind (·.status)).getD 200
  let headers ← Headers.ofFields ((result.bind (·.headers)).getD [])
  let headers := headers.set (js "Idempotency-Replayed") headerTrue
  let headers :=
    if record.resultOmitted = some true then headers.set (js "Idempotency-Replay") headerOmitted else headers
  let body := (result.bind (·.body)).getD []
  let useBody := record.resultOmitted ≠ some true ∧ body ≠ [] ∧ status ∉ nullBodyStatus
  newResponse (if useBody then some body else none) status headers

/-! ## Names -/

lemma byteLowercase_byteLowercase (name : JsString) : byteLowercase (byteLowercase name) = byteLowercase name := by
  rw [byteLowercase, byteLowercase, List.map_map]
  refine List.map_congr_left fun u _ => ?_
  have hlow : ∀ u : UInt16, 0x41 ≤ u ∧ u ≤ 0x5a → ¬ (0x41 ≤ u + 0x20 ∧ u + 0x20 ≤ 0x5a) := by
    rintro u ⟨h₁, h₂⟩ ⟨-, h₃⟩
    rw [UInt16.le_iff_toNat_le] at h₁ h₂ h₃
    rw [UInt16.toNat_add] at h₃
    simp only [UInt16.reduceToNat] at h₁ h₂ h₃
    omega
  simp only [Function.comp_apply]
  split_ifs with hupper hagain
  · exact absurd hagain (hlow u hupper)
  · rfl
  · rfl

/-- A name in lower case is a name. -/
lemma IsHeaderName.byteLowercase {name : JsString} (h : IsHeaderName name) : IsHeaderName (byteLowercase name) := by
  refine ⟨fun hnil => h.1 (List.map_eq_nil_iff.mp hnil), fun u hu => ?_⟩
  obtain ⟨v, hv, rfl⟩ := List.mem_map.mp hu
  split_ifs with hupper
  · obtain ⟨h₁, h₂⟩ := hupper
    have hletter : 0x61 ≤ v + 0x20 ∧ v + 0x20 ≤ 0x7a := by
      rw [UInt16.le_iff_toNat_le] at h₁ h₂
      simp only [UInt16.reduceToNat] at h₁ h₂
      constructor
      all_goals
        rw [UInt16.le_iff_toNat_le, UInt16.toNat_add]
        simp only [UInt16.reduceToNat]
        omega
    simp [isTokenUnit, hletter]
  · exact h.2 v hv

namespace Headers

variable (headers : Headers)

lemma names_nodup : headers.names.Nodup :=
  ((List.perm_insertionSort _ _).nodup_iff).mpr (List.nodup_dedup _)

lemma mem_names {name : JsString} : name ∈ headers.names ↔ ∃ e ∈ headers.list, byteLowercase e.1 = name := by
  rw [names, (List.perm_insertionSort _ _).mem_iff, List.mem_dedup, List.mem_map]

lemma get_byteLowercase (name : JsString) : headers.get (byteLowercase name) = headers.get name := by
  rw [get, get, fields, fields, byteLowercase_byteLowercase]

/-- A name that is not in the list has no value. -/
lemma get_of_not_mem {name : JsString} (h : byteLowercase name ∉ headers.names) : headers.get name = none := by
  have hfields : headers.fields name = [] := by
    rw [fields, List.map_eq_nil_iff, List.filter_eq_nil_iff]
    intro e he heq
    exact h (headers.mem_names.mpr ⟨e, he, by simpa using heq⟩)
  rw [get, hfields]

lemma get_eq {name : JsString} (h : headers.fields name ≠ []) :
    headers.get name = some (joinFields (headers.fields name)) := by
  obtain ⟨value, values, hvalues⟩ := List.exists_cons_of_ne_nil h
  rw [get, hvalues]

lemma eq_of_get {name value : JsString} (h : headers.get name = some value) : joinFields (headers.fields name) = value := by
  rw [get] at h
  split at h
  · cases h
  · exact Option.some.inj h

end Headers

/-! ## What is stored -/

/-- **The value that is stored under a name** is what `get` gives, when the name is allowlisted. -/
lemma stored_value (headers : Headers) (allow : List JsString) (name : JsString) :
    ((storedHeaders headers allow).filter fun e => byteLowercase e.1 = byteLowercase name).map Prod.snd
      = if byteLowercase name ≠ js "set-cookie" ∧ byteLowercase name ∈ allow then (headers.get name).toList
        else [] := by
  have hlower : ∀ m ∈ headers.names, byteLowercase m = m := by
    intro m hm
    obtain ⟨e, -, rfl⟩ := headers.mem_names.mp hm
    exact byteLowercase_byteLowercase e.1
  -- each name contributes the entry under it, if it is the name that is asked for
  have heach : ∀ m ∈ headers.names,
      ((((if m = js "set-cookie" then (headers.fields m).map fun value => (m, value)
          else (headers.get m).toList.map fun value => (m, value)).filter
            fun field => field.1 ≠ js "set-cookie" && allow.contains field.1).filter
              fun e => byteLowercase e.1 = byteLowercase name).map Prod.snd)
        = if m = byteLowercase name then
            if m ≠ js "set-cookie" ∧ m ∈ allow then (headers.get m).toList else []
          else [] := by
    intro m hm
    by_cases hcookie : m = js "set-cookie"
    · simp [hcookie, List.filter_map, Function.comp_def]
    · rw [if_neg hcookie]
      simp only [List.filter_map, Function.comp_def, hlower m hm, List.map_map, List.filter_filter]
      by_cases hname : m = byteLowercase name
      · by_cases hallow : m ∈ allow
        · simp [← hname, hcookie, hallow]
        · simp [← hname, hcookie, hallow]
      · simp [hname]
  rw [storedHeaders, Headers.entries, List.filter_flatMap, List.filter_flatMap, List.map_flatMap,
    List.flatMap_congr heach, Relational.flatMap_single headers.names_nodup, headers.get_byteLowercase]
  by_cases hmem : byteLowercase name ∈ headers.names
  · rw [if_pos hmem]
  · rw [if_neg hmem, headers.get_of_not_mem hmem]
    simp

/-! ## What is replayed -/

lemma joinFields_legal {values : List JsString} (h : ∀ value ∈ values, Legal value) : Legal (joinFields values) := by
  induction values with
  | nil => simp [Legal, joinFields]
  | cons value values ih =>
      obtain ⟨hvalue, hvalues⟩ := List.forall_mem_cons.mp h
      cases values with
      | nil => exact hvalue
      | cons next values =>
          intro u hu
          rw [joinFields_cons_cons, List.mem_append, List.mem_cons, List.mem_cons] at hu
          rcases hu with hu | rfl | rfl | hu
          · exact hvalue u hu
          · decide
          · decide
          · exact ih hvalues u hu

/-- A legal value is legal without the white space at its ends. -/
lemma ofUnits_legal {value : JsString} (h : Legal value) :
    ∃ v, HeaderValue.ofUnits value = some v ∧ v.units = trim isHttpWhitespace value := by
  have htrim : Legal (trim isHttpWhitespace value) := by
    obtain ⟨lead, trail, heq, -, -⟩ := (trim_eq_iff.mp (rfl : trim isHttpWhitespace value = _)).split
    intro u hu
    exact h u (by rw [heq]; exact List.mem_append_left _ (List.mem_append_right _ hu))
  exact ⟨_, dif_pos htrim, rfl⟩

namespace Headers

lemma fields_nil (name : JsString) : (⟨[]⟩ : Headers).fields name = [] := rfl

/-- **New headers** are what they are made of, each value stripped. -/
lemma ofFields_eq {stored : List (JsString × JsString)} (h : ∀ field ∈ stored, IsHeaderName field.1 ∧ Legal field.2) :
    ∃ headers, ofFields stored = some headers ∧ ∀ name, headers.fields name
      = ((stored.filter fun e => byteLowercase e.1 = byteLowercase name).map Prod.snd).map (trim isHttpWhitespace) := by
  -- over the headers that have been appended already
  suffices hgen : ∀ (headers : Headers), ∃ headers',
      stored.foldlM (fun headers field => headers.append field.1 field.2) headers = some headers'
      ∧ ∀ name, headers'.fields name = headers.fields name
        ++ ((stored.filter fun e => byteLowercase e.1 = byteLowercase name).map Prod.snd).map (trim isHttpWhitespace) by
    obtain ⟨headers, hheaders, hfields⟩ := hgen ⟨[]⟩
    exact ⟨headers, hheaders, fun name => by rw [hfields, fields_nil, List.nil_append]⟩
  induction stored with
  | nil => exact fun headers => ⟨headers, rfl, fun name => by simp⟩
  | cons field stored ih =>
      intro headers
      obtain ⟨⟨hname, hlegal⟩, hstored⟩ := List.forall_mem_cons.mp h
      obtain ⟨value, hvalue, hunits⟩ := ofUnits_legal hlegal
      obtain ⟨headers', hheaders', hfields⟩ := ih hstored ⟨headers.list ++ [(field.1, value)]⟩
      refine ⟨headers', ?_, fun name => ?_⟩
      · rw [List.foldlM_cons, append, if_pos hname, hvalue]
        exact hheaders'
      · rw [hfields]
        by_cases heq : byteLowercase field.1 = byteLowercase name
        · simp [fields, List.filter_append, heq, hunits]
        · simp [fields, List.filter_append, heq]

/-- In a list, `set` leaves one value under the name. -/
lemma fields_setList (name : JsString) (value : HeaderValue) (list : List (JsString × HeaderValue)) (name' : JsString) :
    (⟨setList name value list⟩ : Headers).fields name'
      = if byteLowercase name' = byteLowercase name then [value.units] else (⟨list⟩ : Headers).fields name' := by
  simp only [fields]
  by_cases heq : byteLowercase name' = byteLowercase name
  · rw [if_pos heq, heq]
    induction list with
    | nil => simp [setList]
    | cons e rest ih =>
        rw [setList]
        split_ifs with he
        · simp [he, List.filter_filter]
        · rw [List.filter_cons_of_neg (by simpa using he), ih]
  · rw [if_neg heq]
    induction list with
    | nil => simp [setList, Ne.symm heq]
    | cons e rest ih =>
        rw [setList]
        split_ifs with he
        · have hne : byteLowercase e.1 ≠ byteLowercase name' := fun h => heq (h.symm.trans he)
          rw [List.filter_cons_of_neg (by simpa using hne), List.filter_cons_of_neg (by simpa using hne),
            List.filter_filter]
          congr 1
          refine List.filter_congr fun e' _ => ?_
          by_cases he' : byteLowercase e'.1 = byteLowercase name'
          · simp [he', heq]
          · simp [he']
        · by_cases hsame : byteLowercase e.1 = byteLowercase name'
          · rw [List.filter_cons_of_pos (by simpa using hsame), List.filter_cons_of_pos (by simpa using hsame),
              List.map_cons, List.map_cons, ih]
          · rw [List.filter_cons_of_neg (by simpa using hsame), List.filter_cons_of_neg (by simpa using hsame), ih]

/-- **A header that is set** has the one value, and no other header changes. -/
lemma get_set (headers : Headers) (name : JsString) (value : HeaderValue) (name' : JsString) :
    (headers.set name value).get name'
      = if byteLowercase name' = byteLowercase name then some value.units else headers.get name' := by
  rw [get, set, fields_setList]
  split_ifs
  · rfl
  · rfl

end Headers

/-- A joined value has white space at an end exactly when several values were joined and the last is empty. -/
lemma trim_get (headers : Headers) (name : JsString) :
    (headers.get name).map (trim isHttpWhitespace) = headers.get name
      ↔ ∀ earlier, headers.fields name = earlier ++ [[]] → earlier = [] := by
  have hvalues : ∀ value ∈ headers.fields name, (∀ u ∈ value.head?, isHttpWhitespace u = false)
      ∧ ∀ u ∈ value.getLast?, isHttpWhitespace u = false := by
    intro value hvalue
    obtain ⟨e, -, rfl⟩ := List.mem_map.mp hvalue
    simpa using And.intro e.2.stripped.first e.2.stripped.last
  rcases List.eq_nil_or_concat (headers.fields name) with hnil | ⟨earlier, last, hlast⟩
  · simp [Headers.get, hnil]
  rw [List.concat_eq_append] at hlast
  rw [hlast] at hvalues ⊢
  rw [headers.get_eq (by simp [hlast]), hlast, Option.map_some, Option.some.injEq]
  cases earlier with
  | nil =>
      have hends := hvalues last (by simp)
      refine iff_of_true (trim_eq_iff.mpr ⟨⟨[], [], by simp, by simp, by simp⟩, ?_, ?_⟩) fun earlier h => ?_
      · simpa [joinFields] using hends.1
      · simpa [joinFields] using hends.2
      · exact (List.append_inj' h rfl).1.symm
  | cons value earlier =>
      rw [trim_joinFields (by decide) (by decide) (List.cons_ne_nil _ _) hvalues]
      split_ifs with hempty
      · subst hempty
        refine iff_of_false (fun h => ?_) fun h => absurd (h _ rfl) (List.cons_ne_nil _ _)
        rw [joinFields_concat (List.cons_ne_nil _ _)] at h
        simpa using List.append_cancel_left h
      · refine iff_of_true rfl fun earlier' h => ?_
        exact absurd (List.cons.inj (List.append_inj' h rfl).2).1 hempty

section

variable {allow : List JsString} {status : ℤ} {headers : Headers} {body : List UInt8} {name : JsString}

/-- The names a replay answers for: allowlisted, and neither `Set-Cookie`, which is never stored, nor the header that
the replay sets itself. -/
def Replayed (allow : List JsString) (name : JsString) : Prop :=
  byteLowercase name ∈ allow ∧ byteLowercase name ≠ js "set-cookie" ∧ byteLowercase name ≠ js "idempotency-replayed"

/-- **A replay of a response**: its status, its body, and of its headers the allowlisted ones. -/
structure IsReplay (allow : List JsString) (status : ℤ) (headers : Headers) (body : List UInt8) (r : Response) :
    Prop where
  status_eq : r.status = status
  headers_eq : ∀ name, Replayed allow name → r.headers.get name = headers.get name
  others : ∀ name, ¬ Replayed allow name → byteLowercase name ≠ js "idempotency-replayed" → r.headers.get name = none
  body_eq : r.body.getD [] = body

/-- No header that is replayed is repeated with an empty last value. -/
def Headers.Replayable (headers : Headers) (allow : List JsString) : Prop :=
  ∀ name, Replayed allow name → ∀ earlier, headers.fields name = earlier ++ [[]] → earlier = []

/-- A record that keeps a response with its body. -/
structure Keeps (allow : List JsString) (status : ℤ) (headers : Headers) (body : List UInt8)
    (record : IdempotencyRecord) : Prop where
  result : ∃ result, record.result = some result ∧ result.status = some status
    ∧ result.headers = some (storedHeaders headers allow) ∧ result.body = some body
  kept : record.resultOmitted ≠ some true

/-- What `entries` gives are names and values that a header may have. -/
lemma entries_legal (hnamed : ∀ field ∈ headers.list, IsHeaderName field.1) :
    ∀ field ∈ headers.entries, IsHeaderName field.1 ∧ Legal field.2 := by
  intro field hfield
  have hvalues : ∀ name, ∀ value ∈ headers.fields name, Legal value := by
    intro name value hvalue
    obtain ⟨e, -, rfl⟩ := List.mem_map.mp hvalue
    exact e.2.legal
  obtain ⟨name, hname, hmem⟩ := List.mem_flatMap.mp hfield
  obtain ⟨e, he, rfl⟩ := headers.mem_names.mp hname
  have hlegal := (hnamed e he).byteLowercase
  split_ifs at hmem
  · obtain ⟨value, hvalue, rfl⟩ := List.mem_map.mp hmem
    exact ⟨hlegal, hvalues _ value hvalue⟩
  · obtain ⟨value, hvalue, rfl⟩ := List.mem_map.mp hmem
    refine ⟨hlegal, ?_⟩
    rw [Option.mem_toList] at hvalue
    rw [← headers.eq_of_get hvalue]
    exact joinFields_legal (hvalues _)

/-- **A replay** shows the status and the body of the response, and each allowlisted header as it was stored,
stripped. -/
lemma replayResponse_eq (hnamed : ∀ field ∈ headers.list, IsHeaderName field.1)
    (hstatus : 200 ≤ status ∧ status ≤ 599) (hbody : status ∈ nullBodyStatus → body = [])
    {record : IdempotencyRecord} (hrecord : Keeps allow status headers body record) :
    ∃ r, replayResponse record = some r ∧ r.status = status ∧ r.body.getD [] = body
      ∧ ∀ name, byteLowercase name ≠ js "idempotency-replayed" → r.headers.get name
        = if byteLowercase name ≠ js "set-cookie" ∧ byteLowercase name ∈ allow then
            (headers.get name).map (trim isHttpWhitespace) else none := by
  obtain ⟨⟨result, hresult, hresultStatus, hresultHeaders, hresultBody⟩, hkept⟩ := hrecord
  obtain ⟨stored, hstored, hfields⟩ := Headers.ofFields_eq
    (fun field (hfield : field ∈ storedHeaders headers allow) => entries_legal hnamed field (List.mem_filter.mp hfield).1)
  have hreplay : replayResponse record = newResponse (if body ≠ [] ∧ status ∉ nullBodyStatus then some body else none)
      status (stored.set (js "Idempotency-Replayed") headerTrue) := by
    simp [replayResponse, hresult, hresultStatus, hresultHeaders, hresultBody, hstored, hkept]
  have hnew : newResponse (if body ≠ [] ∧ status ∉ nullBodyStatus then some body else none) status
      (stored.set (js "Idempotency-Replayed") headerTrue)
      = some ⟨status, stored.set (js "Idempotency-Replayed") headerTrue,
          if body ≠ [] ∧ status ∉ nullBodyStatus then some body else none⟩ := by
    rw [newResponse, if_neg (by omega), if_neg]
    rintro ⟨hsome, hnull⟩
    simp [hnull] at hsome
  refine ⟨_, hreplay.trans hnew, rfl, ?_, fun name hname => ?_⟩
  · by_cases hempty : body = []
    · simp [hempty]
    · simp [hempty, mt hbody hempty]
  · have hlower : byteLowercase (js "Idempotency-Replayed") = js "idempotency-replayed" := by decide
    rw [Headers.get_set, hlower, if_neg hname, Headers.get, hfields, stored_value]
    split_ifs
    · cases headers.get name <;> rfl
    · rfl

/-- **A replay is the response again** exactly when no header that is replayed is repeated with an empty last
value. -/
lemma replayResponse_iff (hnamed : ∀ field ∈ headers.list, IsHeaderName field.1)
    (hstatus : 200 ≤ status ∧ status ≤ 599) (hbody : status ∈ nullBodyStatus → body = [])
    {record : IdempotencyRecord} (hrecord : Keeps allow status headers body record) :
    (∃ r, replayResponse record = some r ∧ IsReplay allow status headers body r) ↔ headers.Replayable allow := by
  obtain ⟨r, hreplay, hrstatus, hrbody, hget⟩ := replayResponse_eq hnamed hstatus hbody hrecord
  constructor
  · rintro ⟨r', hreplay', h⟩ name hname
    obtain rfl : r' = r := Option.some.inj (hreplay'.symm.trans hreplay)
    have heq := h.headers_eq name hname
    rw [hget name hname.2.2, if_pos ⟨hname.2.1, hname.1⟩] at heq
    exact (trim_get headers name).mp heq
  · intro h
    refine ⟨r, hreplay, hrstatus, fun name hname => ?_, fun name hname hother => ?_, hrbody⟩
    · rw [hget name hname.2.2, if_pos ⟨hname.2.1, hname.1⟩]
      exact (trim_get headers name).mpr (h name hname)
    · rw [hget name hother, if_neg]
      exact fun hstored => hname ⟨hstored.2, hstored.1, hother⟩

end

end Anyonce
