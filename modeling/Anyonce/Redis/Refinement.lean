import Anyonce.Redis.Store
import Anyonce.Sql.Refinement

/-!
# The Redis store refines the memory store

A hash is updated field by field, with numbers as text and a sentinel for no body, so what has to be
shown is that no field is ever stale.  `RowFields` says which fields a hash has when it holds a row,
and each script is shown to do to the row what the contract says: `run_beginLua`, `run_completeLua`
and `run_abandonLua`.  The rows are those of the SQL stores, so the step from rows to the records of
the memory store is the one made there.

* `RowFields` — the fields of a hash that holds a row.
* `redis_store_refines_memory` — the same replies to every sequence of calls, and a new claim that
  keeps no field of the result before.
-/

namespace Anyonce

open Ecma Interaction Relational

/-! ## Hashes and rows -/

/-- The fields of a hash that holds a row: numbers in decimal, the body in base64, and the fields of a
result only where the row has one. -/
structure RowFields (fields : Hash) (row : RecordRow JsString) : Prop where
  fingerprint : fields.get (js "fingerprint") = some row.fingerprint
  state : fields.get (js "state") = some (stateText row.state)
  fence : fields.get (js "fence") = some (intText row.fence)
  leaseUntil : fields.get (js "lease_until") = some (intText row.leaseUntil)
  createdAt : fields.get (js "created_at") = some (intText row.createdAt)
  expiresAt : fields.get (js "expires_at") = some (intText row.expiresAt)
  resultMeta : fields.get (js "result_meta") = row.resultMeta
  resultBody : fields.get (js "result_body") = row.resultBody.map bytesToBase64
  resultOmitted : fields.get (js "result_omitted") = some (intText row.resultOmitted)

/-- The scripts compare the text of the state. -/
lemma completed_iff (state : RecordState) :
    some (stateText state) = some (js "completed") ↔ state = .Completed := by
  cases state <;> decide

lemma inFlight_iff (state : RecordState) :
    some (stateText state) = some (js "in_flight") ↔ state = .InFlight := by
  cases state <;> decide

/-- **The reply decoder reads the row back.** -/
lemma hashToRow_of_rowFields {fields : Hash} {row : RecordRow JsString} (h : RowFields fields row)
    {scope key : JsString} (hscope : row.scope = scope) (hkey : row.key = key) :
    hashToRow scope key fields = some row := by
  subst hscope hkey
  have hstate : stateField fields = some row.state := by
    rw [stateField, h.state]
    exact stateOfText_stateText row.state
  have hbody : bodyField fields = some row.resultBody := by
    rw [bodyField, h.resultBody]
    cases row.resultBody with
    | none => rfl
    | some bytes =>
        simp only [Option.map_some, bytesToBase64_eq, base64ToBytes, atob_btoa]
  simp only [hashToRow, hstate, hbody, numberField, h.fingerprint, h.fence, h.leaseUntil,
    h.createdAt, h.expiresAt, h.resultMeta, h.resultOmitted, parseInt_intText]
  rfl

/-- A hash with the same fields holds the same row. -/
lemma RowFields.congr {fields fields' : Hash} {row : RecordRow JsString} (h : RowFields fields row)
    (hget : ∀ name, fields'.get name = fields.get name) : RowFields fields' row where
  fingerprint := (hget _).trans h.fingerprint
  state := (hget _).trans h.state
  fence := (hget _).trans h.fence
  leaseUntil := (hget _).trans h.leaseUntil
  createdAt := (hget _).trans h.createdAt
  expiresAt := (hget _).trans h.expiresAt
  resultMeta := (hget _).trans h.resultMeta
  resultBody := (hget _).trans h.resultBody
  resultOmitted := (hget _).trans h.resultOmitted

/-! ### Fields after the writes of a script -/

section

variable (fields : Hash) (name : JsString)

lemma get_setAll (pairs : List (JsString × JsString)) :
    (fields.setAll pairs).get name
      = ((pairs.reverse.find? fun p => p.1 = name).map Prod.snd).or (fields.get name) := by
  induction pairs generalizing fields with
  | nil => simp [Hash.setAll]
  | cons p rest ih =>
      rw [Hash.setAll, List.foldl_cons, ← Hash.setAll, ih, List.reverse_cons, List.find?_append,
        OrderedMap.get_set]
      cases rest.reverse.find? fun p => p.1 = name with
      | some q => rfl
      | none =>
          by_cases hp : p.1 = name
          · simp [hp]
          · simp [hp, Ne.symm hp]

lemma get_deleteAll (names : List JsString) :
    (fields.deleteAll names).get name = if name ∈ names then none else fields.get name := by
  induction names generalizing fields with
  | nil => simp [Hash.deleteAll]
  | cons n rest ih =>
      rw [Hash.deleteAll, List.foldl_cons, ← Hash.deleteAll, ih, OrderedMap.get_delete]
      by_cases hn : name = n
      · simp [hn]
      · simp [hn]

/-- A field that is written and not deleted. -/
lemma get_written {fields : Hash} {name v : JsString} {pairs : List (JsString × JsString)}
    {names : List JsString} (hkept : name ∉ names)
    (hfind : (pairs.reverse.find? fun p => p.1 = name).map Prod.snd = some v) :
    ((fields.setAll pairs).deleteAll names).get name = some v := by
  rw [get_deleteAll, if_neg hkept, get_setAll, hfind]
  rfl

end

/-- **A new claim keeps no field of the result before**, whatever the hash held. -/
lemma rowFields_claim (fields : Hash) (op : Operation) (opts : BeginOptions) (fence : ℤ) :
    RowFields ((fields.setAll
        (claimPairs op.fingerprint opts.now opts.leaseMs opts.ttlMs fence)).deleteAll
      [js "result_meta", js "result_body"]) (claimRow op.columns opts.columns fence) where
  fingerprint := get_written (by decide) rfl
  state := get_written (by decide) rfl
  fence := get_written (by decide) rfl
  leaseUntil := get_written (by decide) rfl
  createdAt := get_written (by decide) rfl
  expiresAt := get_written (by decide) rfl
  resultMeta := by
    rw [get_deleteAll, if_pos (by decide)]
    rfl
  resultBody := by
    rw [get_deleteAll, if_pos (by decide)]
    rfl
  resultOmitted := get_written (by decide) rfl

/-- The fields `COMPLETE_LUA` writes. -/
def completePairs (result : Completion) : List (JsString × JsString) :=
  [(js "state", js "completed"), (js "result_meta", encodeResultMeta result),
    (js "result_omitted", if result.isOmitted then js "1" else js "0")]

/-- The hash after `COMPLETE_LUA` stored a result. -/
def completeHash (fields : Hash) (result : Completion) : Hash :=
  match result.columns.resultBody with
  | none => (fields.setAll (completePairs result)).deleteAll [js "result_body"]
  | some bytes => (fields.setAll (completePairs result)).setAll [(js "result_body", btoa bytes)]

lemma get_completeHash (fields : Hash) (result : Completion) {name : JsString}
    (hname : name ≠ js "result_body") :
    (completeHash fields result).get name = (fields.setAll (completePairs result)).get name := by
  rw [completeHash]
  cases result.columns.resultBody with
  | none => exact (get_deleteAll _ _ _).trans (if_neg (by simpa using hname))
  | some bytes =>
      have hfind : ([(js "result_body", btoa bytes)].reverse.find? fun p => p.1 = name) = none := by
        simp [Ne.symm hname]
      rw [get_setAll, hfind]
      rfl

lemma get_completeHash_kept (fields : Hash) (result : Completion) {name : JsString}
    (hname : name ≠ js "result_body")
    (hfind : ((completePairs result).reverse.find? fun p => p.1 = name) = none) :
    (completeHash fields result).get name = fields.get name := by
  rw [get_completeHash fields result hname, get_setAll, hfind]
  rfl

/-- **A stored result**: the hash then holds the completed row. -/
lemma rowFields_complete {fields : Hash} {row : RecordRow JsString} (h : RowFields fields row)
    (result : Completion) :
    RowFields (completeHash fields result) (completedRow result.columns row) where
  fingerprint := (get_completeHash_kept fields result (by decide) rfl).trans h.fingerprint
  state := by
    rw [get_completeHash fields result (by decide), get_setAll]
    rfl
  fence := (get_completeHash_kept fields result (by decide) rfl).trans h.fence
  leaseUntil := (get_completeHash_kept fields result (by decide) rfl).trans h.leaseUntil
  createdAt := (get_completeHash_kept fields result (by decide) rfl).trans h.createdAt
  expiresAt := (get_completeHash_kept fields result (by decide) rfl).trans h.expiresAt
  resultMeta := by
    rw [get_completeHash fields result (by decide), get_setAll]
    rfl
  resultBody := by
    rw [completeHash]
    show _ = result.columns.resultBody.map bytesToBase64
    cases result.columns.resultBody with
    | none => exact (get_deleteAll _ _ _).trans (if_pos (by decide))
    | some bytes =>
        show OrderedMap.get ((fields.setAll (completePairs result)).setAll _) _ = _
        rw [get_setAll, Option.map_some, bytesToBase64_eq]
        rfl
  resultOmitted := by
    rw [get_completeHash fields result (by decide), get_setAll]
    cases result <;> rfl

/-- The sentinel is no base64 text, so the script stores exactly the bodies there are. -/
lemma bodyArg_eq (result : Completion) :
    (result.columns.resultBody = none ∧ result.bodyArg = js "-")
      ∨ ∃ bytes, result.columns.resultBody = some bytes ∧ result.bodyArg = btoa bytes
        ∧ btoa bytes ≠ js "-" := by
  cases result with
  | Omitted r => exact Or.inl ⟨rfl, rfl⟩
  | Stored r =>
      cases hbody : r.body with
      | none => exact Or.inl ⟨hbody, by simp [Completion.bodyArg, hbody]⟩
      | some bytes =>
          refine Or.inr ⟨bytes, hbody, by simp [Completion.bodyArg, hbody, bytesToBase64_eq], ?_⟩
          intro hsentinel
          have hlength := length_btoa bytes
          rw [hsentinel, show (js "-").length = 1 from rfl] at hlength
          omega

/-! ## The scripts -/

/-- What a key holds: nothing, or a hash that holds the row. -/
abbrev HoldsRow : Option Hash → Option (RecordRow JsString) → Prop := Option.Rel RowFields

/-- Only the key `k` was written, and holds `h` now. -/
def WrittenAt (k : JsString) (h : Option Hash) (s s' : Keyspace) : Prop :=
  ∀ k', s'.get k' = if k' = k then h else s.get k'

lemma run_acquireLua (s : Keyspace) (k : JsString) (op : Operation) (opts : BeginOptions)
    {grace : ℤ} (hpos : 0 < opts.ttlMs + grace) (fence : ℤ) :
    ∃ s' h, (acquireLua k op.fingerprint opts.now opts.leaseMs opts.ttlMs grace fence).run s
        = (.ok (.Items [.Str (js "acquired"), .Num fence]), s')
      ∧ WrittenAt k (some h) s s' ∧ RowFields h (claimRow op.columns opts.columns fence) := by
  have hfields := rowFields_claim (Keyspace.hash s k) op opts fence
  set h₁ := (Keyspace.hash s k).setAll
    (claimPairs op.fingerprint opts.now opts.leaseMs opts.ttlMs fence) with hh₁
  set h₂ := h₁.deleteAll [js "result_meta", js "result_body"] with hh₂
  have hhash : Keyspace.hash (s.set k h₁) k = h₁ := Keyspace.hash_set s k h₁
  have hdel : (Lua.hdel k [js "result_meta", js "result_body"]).run (s.set k h₁)
      = (.ok (), (s.set k h₁).set k h₂) := by
    have hkept : ((Keyspace.hash (s.set k h₁) k).deleteAll
        [js "result_meta", js "result_body"]).get (js "fingerprint") = some op.fingerprint := by
      rw [hhash]
      exact hfields.fingerprint
    rw [Lua.run_hdel _ _ hkept, hhash]
  refine ⟨(s.set k h₁).set k h₂, h₂, ?_, ?_, hfields⟩
  · simp only [acquireLua, Lua.run_bind, Lua.run_hset, ← hh₁, hdel, Lua.run_pexpire _ hpos,
      Lua.run_pure]
  · intro k'
    rw [OrderedMap.get_set, OrderedMap.get_set]
    split_ifs <;> rfl

/-- What `BEGIN_LUA` returns for a row it does not claim. -/
def refusalReply (op : Operation) (row : RecordRow JsString) (fields : Hash) : LuaReply :=
  let all : List LuaValue := fields.rows.flatMap fun p => [.Str p.1, .Str p.2]
  if row.fingerprint ≠ op.fingerprint then .Items (.Str (js "mismatch") :: all)
  else if row.state = .Completed then .Items (.Str (js "completed") :: all)
  else .Items [.Str (js "in_flight"), .Str (intText row.leaseUntil)]

section

variable {s : Keyspace} {k : JsString} (op : Operation) (opts : BeginOptions) {grace : ℤ}

/-- `BEGIN_LUA` as `RedisStore` calls it. -/
abbrev beginCall (k : JsString) (op : Operation) (opts : BeginOptions) (grace : ℤ) : Lua LuaReply :=
  beginLua k op.fingerprint (intText opts.now) (intText opts.leaseMs) (intText opts.ttlMs)
    (intText grace)

lemma run_beginCall_none (hget : s.get k = none) : (beginCall k op opts grace).run s
    = (acquireLua k op.fingerprint opts.now opts.leaseMs opts.ttlMs grace 1).run s := by
  simp only [beginLua, Lua.run_bind, Lua.tonumber_intText, Lua.run_number, Lua.run_hmget,
    Keyspace.hash_of_none hget]
  rfl

lemma run_beginCall_some {fields : Hash} {row : RecordRow JsString} (hget : s.get k = some fields)
    (hf : RowFields fields row) : (beginCall k op opts grace).run s
      = if row.expiresAt > opts.now
            ∧ (row.fingerprint ≠ op.fingerprint ∨ row.state = .Completed
              ∨ row.leaseUntil > opts.now) then (.ok (refusalReply op row fields), s)
        else (acquireLua k op.fingerprint opts.now opts.leaseMs opts.ttlMs grace
          (row.fence + 1)).run s := by
  simp only [beginLua, Lua.run_bind, Lua.tonumber_intText, Lua.run_number, Lua.run_hmget,
    Keyspace.hash_of_get hget, List.map_cons, List.map_nil, hf.fingerprint, hf.state, hf.fence,
    hf.leaseUntil, hf.expiresAt, completed_iff]
  by_cases hlive : row.expiresAt > opts.now
  · by_cases hfp : row.fingerprint = op.fingerprint
    · by_cases hst : row.state = .Completed
      · simp [hlive, hfp, hst, refusalReply, Keyspace.hash_of_get hget]
      · by_cases hlease : row.leaseUntil > opts.now
        · simp [hlive, hfp, hst, hlease, refusalReply]
        · simp [hlive, hfp, hst, hlease]
    · simp [hlive, hfp, refusalReply, Keyspace.hash_of_get hget]
  · simp [hlive]

/-- **`BEGIN_LUA`** claims a claimable row with the next fence, and reports any other. -/
lemma run_beginCall {found : Option (RecordRow JsString)} (h : HoldsRow (s.get k) found)
    (hpos : 0 < opts.ttlMs + grace) :
    ((rowModel JsString).claimable op.columns opts.columns found = true
        ∧ ∃ s' h', (beginCall k op opts grace).run s
            = (.ok (.Items [.Str (js "acquired"), .Num ((rowModel JsString).nextFence found)]), s')
          ∧ WrittenAt k (some h') s s'
          ∧ RowFields h' (claimRow op.columns opts.columns ((rowModel JsString).nextFence found)))
      ∨ ((rowModel JsString).claimable op.columns opts.columns found = false
        ∧ ∃ row fields, found = some row ∧ RowFields fields row
          ∧ (beginCall k op opts grace).run s = (.ok (refusalReply op row fields), s)) := by
  generalize hget : s.get k = cell at h
  cases h with
  | none =>
      rw [run_beginCall_none op opts hget]
      exact Or.inl ⟨rfl, run_acquireLua s k op opts hpos 1⟩
  | @some fields row hf =>
      rw [run_beginCall_some op opts hget hf]
      split_ifs with hrefuse
      · refine Or.inr ⟨?_, row, fields, rfl, hf, rfl⟩
        rw [← Bool.not_eq_true, ClaimModel.claimable_some]
        rintro (hexp | ⟨hfp, hst, hlease⟩)
        · exact absurd hrefuse.1 (not_lt.mpr hexp)
        · rcases hrefuse.2 with hne | hc | hlt
          · exact hne hfp
          · cases hst.symm.trans hc
          · exact absurd hlt (not_lt.mpr hlease)
      · refine Or.inl ⟨?_, run_acquireLua s k op opts hpos (row.fence + 1)⟩
        rw [ClaimModel.claimable_some]
        rw [not_and_or, not_or, not_or, not_not, not_lt, not_lt] at hrefuse
        rcases hrefuse with hexp | ⟨hfp, hst, hlease⟩
        · exact Or.inl hexp
        · exact Or.inr ⟨hfp, (rowModel JsString).state_eq_inFlight_of_ne hst, hlease⟩

end

/-- `COMPLETE_LUA` as `RedisStore` calls it. -/
abbrev completeCall (k : JsString) (fence : ℤ) (result : Completion) (now : ℤ) : Lua LuaReply :=
  completeLua k (intText fence) (intText now) (encodeResultMeta result) result.bodyArg
    (if result.isOmitted then js "1" else js "0")

/-- The writes of `COMPLETE_LUA`, with a body and without one. -/
lemma run_completeLua_store (s : Keyspace) {k : JsString} {fields : Hash} {row : RecordRow JsString}
    (hget : s.get k = some fields) (hf : RowFields fields row) {fence now : ℤ}
    (hsel : row.completable fence now = true) (result : Completion) :
    (completeCall k fence result now).run s
      = (.ok (.Text (js "ok")),
        (s.set k (fields.setAll (completePairs result))).set k (completeHash fields result)) := by
  simp only [RecordRow.completable, Bool.and_eq_true, decide_eq_true_eq] at hsel
  obtain ⟨⟨hfence, hlive⟩, hstate⟩ := hsel
  have hhash := Keyspace.hash_set s k (fields.setAll (completePairs result))
  simp only [completeLua, Lua.run_bind, Lua.tonumber_intText, Lua.run_number, Lua.run_hmget,
    Keyspace.hash_of_get hget, List.map_cons, List.map_nil, hf.state, hf.fence, hf.expiresAt,
    completed_iff, hstate, hfence, if_neg (not_le.mpr hlive), ne_eq, not_true_eq_false, if_false,
    reduceCtorEq, Lua.run_hset]
  show Lua.run _ (s.set k (fields.setAll (completePairs result))) = _
  rcases bodyArg_eq result with ⟨hnone, harg⟩ | ⟨bytes, hsome, harg, hne⟩
  · have hcomplete : completeHash fields result
        = (fields.setAll (completePairs result)).deleteAll [js "result_body"] := by
      rw [completeHash, hnone]
    have hkept : ((Keyspace.hash (s.set k (fields.setAll (completePairs result))) k).deleteAll
        [js "result_body"]).get (js "state") = some (js "completed") := by
      rw [hhash]
      exact get_written (by decide) rfl
    rw [if_pos harg, Lua.run_bind, Lua.run_hdel _ _ hkept, hhash, hcomplete]
    rfl
  · have hcomplete : completeHash fields result
        = (fields.setAll (completePairs result)).setAll [(js "result_body", btoa bytes)] := by
      rw [completeHash, hsome]
    rw [harg, if_neg hne, Lua.run_bind, Lua.run_hset, hhash, hcomplete]
    rfl

/-- **`COMPLETE_LUA`** stores the result in a live row in flight under its fence, and says why it did
not store it in any other. -/
lemma run_completeCall {s : Keyspace} {k : JsString} {found : Option (RecordRow JsString)}
    (h : HoldsRow (s.get k) found) (fence : ℤ) (result : Completion) (now : ℤ) :
    (∃ row s' h', found = some row ∧ row.completable fence now = true
        ∧ (completeCall k fence result now).run s = (.ok (.Text (js "ok")), s')
        ∧ WrittenAt k (some h') s s' ∧ RowFields h' (completedRow result.columns row))
      ∨ (found.filter (RecordRow.completable fence now) = none
        ∧ ∃ text, (completeCall k fence result now).run s = (.ok (.Text text), s)
          ∧ statusOfReply (.Text text) = some (completeStatus fence now found)) := by
  generalize hget : s.get k = cell at h
  cases h with
  | none =>
      refine Or.inr ⟨rfl, js "not_found", ?_, rfl⟩
      simp only [completeLua, Lua.run_bind, Lua.tonumber_intText, Lua.run_number, Lua.run_hmget,
        Keyspace.hash_of_none hget]
      rfl
  | @some fields row hf =>
      by_cases hsel : row.completable fence now = true
      · refine Or.inl ⟨row, _, _, rfl, hsel, run_completeLua_store s hget hf hsel result, ?_,
          rowFields_complete hf result⟩
        intro k'
        rw [OrderedMap.get_set, OrderedMap.get_set]
        split_ifs <;> rfl
      · refine Or.inr ⟨by simp [Option.filter, hsel], ?_⟩
        have hrun : (completeCall k fence result now).run s
            = if row.expiresAt ≤ now then (.ok (.Text (js "not_found")), s)
              else if row.fence ≠ fence then (.ok (.Text (js "stale_fence")), s)
              else (.ok (.Text (js "ok")), s) := by
          simp only [completeLua, Lua.run_bind, Lua.tonumber_intText, Lua.run_number, Lua.run_hmget,
            Keyspace.hash_of_get hget, List.map_cons, List.map_nil, hf.state, hf.fence, hf.expiresAt,
            completed_iff]
          by_cases hexp : row.expiresAt ≤ now
          · simp [hexp]
          · by_cases hfence : row.fence = fence
            · have hstate : row.state = .Completed := by
                cases hs : row.state with
                | Completed => rfl
                | InFlight => simp [RecordRow.completable, hfence, hs, not_le.mp hexp] at hsel
              simp [hexp, hfence, hstate]
            · simp [hexp, hfence]
        rw [hrun, completeStatus]
        split_ifs
        · exact ⟨_, rfl, rfl⟩
        · exact ⟨_, rfl, rfl⟩
        · exact ⟨_, rfl, rfl⟩

/-- `ABANDON_LUA` as `RedisStore` calls it. -/
abbrev abandonCall (k : JsString) (fence : ℤ) : Lua LuaReply := abandonLua k (intText fence)

/-- **`ABANDON_LUA`** deletes a row in flight under its fence, and says why it did not delete any
other. -/
lemma run_abandonCall {s : Keyspace} {k : JsString} {found : Option (RecordRow JsString)}
    (h : HoldsRow (s.get k) found) (fence : ℤ) :
    (∃ row, found = some row ∧ row.abandonable fence = true
        ∧ (abandonCall k fence).run s = (.ok (.Text (js "ok")), s.delete k))
      ∨ (found.filter (RecordRow.abandonable fence) = none
        ∧ ∃ text, (abandonCall k fence).run s = (.ok (.Text text), s)
          ∧ statusOfReply (.Text text) = some (abandonStatus fence found)) := by
  generalize hget : s.get k = cell at h
  cases h with
  | none =>
      refine Or.inr ⟨rfl, js "not_found", ?_, rfl⟩
      simp only [abandonLua, Lua.run_bind, Lua.tonumber_intText, Lua.run_hmget,
        Keyspace.hash_of_none hget]
      rfl
  | @some fields row hf =>
      have hrun : (abandonCall k fence).run s
          = if row.state ≠ .InFlight then (.ok (.Text (js "not_found")), s)
            else if row.fence ≠ fence then (.ok (.Text (js "stale_fence")), s)
            else (.ok (.Text (js "ok")), s.delete k) := by
        simp only [abandonLua, Lua.run_bind, Lua.tonumber_intText, Lua.run_hmget,
          Keyspace.hash_of_get hget, List.map_cons, List.map_nil, hf.state, hf.fence, ne_eq,
          inFlight_iff]
        by_cases hstate : row.state = .InFlight
        · by_cases hfence : row.fence = fence
          · simp [hstate, hfence]
          · simp [hstate, hfence]
        · simp [hstate]
      rw [hrun]
      by_cases hstate : row.state = .InFlight
      · by_cases hfence : row.fence = fence
        · exact Or.inl ⟨row, rfl, by simp [RecordRow.abandonable, hstate, hfence],
            by simp [hstate, hfence]⟩
        · refine Or.inr ⟨by simp [Option.filter, RecordRow.abandonable, hfence], js "stale_fence", ?_⟩
          refine ⟨by simp [hstate, hfence], ?_⟩
          rw [abandonStatus, if_neg (not_not.mpr hstate), if_neg hfence]
          rfl
      · refine Or.inr ⟨by simp [Option.filter, RecordRow.abandonable, hstate], js "not_found", ?_⟩
        refine ⟨by simp [hstate], ?_⟩
        rw [abandonStatus, if_pos hstate]
        rfl

/-! ## Replies -/

/-- The flat table of `HGETALL`, read pair by pair. -/
lemma pairsInto_flatMap (rows : List (JsString × JsString)) (out : Hash) :
    pairsInto (rows.flatMap fun p => [.Str p.1, .Str p.2]) out = out.setAll rows := by
  induction rows generalizing out with
  | nil => rfl
  | cons p rest ih => exact ih _

/-- The object the decoder builds has the fields of the hash. -/
lemma get_pairsToFields (fields : Hash) (name : JsString) :
    (pairsToFields (fields.rows.flatMap fun p => [.Str p.1, .Str p.2])).get name
      = fields.get name := by
  rw [pairsToFields, pairsInto_flatMap, get_setAll, Table.find?_reverse]
  exact Option.or_none

/-- **The reply to a refused claim is decoded to what the contract reports.** -/
lemma beginOutcome_refusal {op : Operation} {row : RecordRow JsString} {fields : Hash}
    (hf : RowFields fields row) (hscope : row.scope = op.scope) (hkey : row.key = op.key)
    {record : IdempotencyRecord} (hread : rowToRecord row = some record) :
    beginOutcome op (refusalReply op row fields) = some (memoryModel.classify op record) := by
  obtain ⟨hfp, hst, -, hlease, -⟩ := rowToRecord_fields hread
  have hrow : (hashToRow op.scope op.key
      (pairsToFields (fields.rows.flatMap fun p => [.Str p.1, .Str p.2]))).bind rowToRecord
      = some record := by
    rw [hashToRow_of_rowFields (hf.congr (get_pairsToFields fields)) hscope hkey]
    exact hread
  simp only [refusalReply, ClaimModel.classify, memoryModel_fingerprint, memoryModel_opFingerprint,
    memoryModel_state, memoryModel_leaseUntil, hfp, hst, hlease]
  split_ifs with hne hc
  · rw [beginOutcome, if_neg (by decide), if_neg (by decide), hrow]
    exact congrArg some (if_neg (by decide))
  · rw [beginOutcome, if_neg (by decide), if_neg (by decide), hrow]
    exact congrArg some (if_pos rfl)
  · rw [beginOutcome, if_neg (by decide), if_pos (by decide)]
    exact congrArg (Option.map _) (parseInt_intText row.leaseUntil)

namespace RedisStore

variable (store : RedisStore) {s : RedisServer} {op : Operation} {reply : LuaReply} {keys : Keyspace}

/-- A script is answered whether the server has it or not. -/
lemma run_eq (script : Script) {k : JsString} (args : List JsString)
    (h : (script.body k args).run s.keys = (.ok reply, keys)) :
    ∃ loaded, run s script k args = (.ok reply, ⟨keys, loaded⟩) := by
  by_cases hloaded : s.loaded script = true
  · refine ⟨s.loaded, ?_⟩
    rw [run, RedisServer.evalsha, if_pos hloaded, h]
    rfl
  · refine ⟨fun other => other = script || s.loaded other, ?_⟩
    rw [run, RedisServer.evalsha, if_neg hloaded]
    show s.eval script k args = _
    rw [RedisServer.eval, h]
    rfl

lemma begin_of_run {opts : BeginOptions}
    (h : (beginCall (store.keyFor op) op opts store.grace).run s.keys = (.ok reply, keys)) :
    ∃ loaded, store.begin s op opts = (decoded (beginOutcome op reply), ⟨keys, loaded⟩) := by
  obtain ⟨loaded, hreply⟩ := run_eq .Begin [op.fingerprint, intText opts.now, intText opts.leaseMs,
    intText opts.ttlMs, intText store.grace] h
  refine ⟨loaded, ?_⟩
  rw [begin, hreply]
  rfl

lemma complete_of_run {fence now : ℤ} {result : Completion}
    (h : (completeCall (store.keyFor op) fence result now).run s.keys = (.ok reply, keys)) :
    ∃ loaded,
      store.complete s op fence result now = (decoded (statusOfReply reply), ⟨keys, loaded⟩) := by
  obtain ⟨loaded, hreply⟩ := run_eq .Complete [intText fence, intText now,
    encodeResultMeta result, result.bodyArg, if result.isOmitted then js "1" else js "0"] h
  refine ⟨loaded, ?_⟩
  rw [complete, hreply]
  rfl

lemma abandon_of_run {fence : ℤ}
    (h : (abandonCall (store.keyFor op) fence).run s.keys = (.ok reply, keys)) :
    ∃ loaded, store.abandon s op fence = (decoded (statusOfReply reply), ⟨keys, loaded⟩) := by
  obtain ⟨loaded, hreply⟩ := run_eq .Abandon [intText fence] h
  refine ⟨loaded, ?_⟩
  rw [abandon, hreply]
  rfl

end RedisStore

/-! ## The simulation -/

/-- Each hash holds the row of the record at the same operation. -/
structure RedisMirrors (store : RedisStore) (m : MemoryStore) (s : RedisServer) : Prop where
  hashes : ∀ op : Operation, Separated op.key →
    HoldsRow (s.keys.get (store.keyFor op)) (m.rowAt op)
  keyed : ∀ (op : Operation) record, Separated op.key → m.cell op = some record →
    record.scope = op.scope ∧ record.key = op.key
  storable : ∀ (op : Operation) record, Separated op.key → m.cell op = some record →
    record.Storable

lemma redisMirrors_empty (store : RedisStore) (loaded : Script → Bool) :
    RedisMirrors store MemoryStore.empty ⟨Table.empty, loaded⟩ where
  hashes _ _ := Option.Rel.none
  keyed _ _ _ h := nomatch h
  storable _ _ _ h := nomatch h

namespace RedisMirrors

variable {store : RedisStore} {m : MemoryStore} {s : RedisServer} (h : RedisMirrors store m s)

include h

/-- **A cell written in both stores**, to the record and to the hash that holds its row. -/
lemma write {op : Operation} (hop : Separated op.key) {cell : Option IdempotencyRecord}
    {hash : Option Hash} (hholds : HoldsRow hash (cell.map recordToRow))
    (hcell : ∀ record, cell = some record →
      (record.scope = op.scope ∧ record.key = op.key) ∧ record.Storable)
    {s' : RedisServer} (hs' : WrittenAt (store.keyFor op) hash s.keys s'.keys) :
    RedisMirrors store (m.withCell op cell) s' := by
  have hget : ∀ op' : Operation, Separated op'.key →
      (op'.scope = op.scope ∧ op'.key = op.key ∧ (m.withCell op cell).cell op' = cell
        ∧ s'.keys.get (store.keyFor op') = hash)
      ∨ ((m.withCell op cell).cell op' = m.cell op'
        ∧ s'.keys.get (store.keyFor op') = s.keys.get (store.keyFor op')) := by
    intro op' hop'
    by_cases hsame : op'.scope = op.scope ∧ op'.key = op.key
    · refine Or.inl ⟨hsame.1, hsame.2, ?_, ?_⟩
      · rw [MemoryStore.cell, OrderedMap.get_setCell, hsame.1, hsame.2, if_pos rfl]
      · rw [hs', RedisStore.keyFor, hsame.1, hsame.2]
        exact if_pos rfl
    · refine Or.inr ⟨?_, ?_⟩
      · rw [MemoryStore.cell, OrderedMap.get_setCell, if_neg]
        exact fun heq => hsame (mapKey_inj hop'.1 hop.1 heq)
      · rw [hs', if_neg]
        intro heq
        rw [RedisStore.keyFor, RedisStore.keyFor, List.append_assoc, List.append_assoc] at heq
        exact hsame (append_separator_inj hop'.2 hop.2 (List.append_cancel_left heq))
  constructor
  · intro op' hop'
    rcases hget op' hop' with ⟨-, -, hm, hk⟩ | ⟨hm, hk⟩
    · rw [MemoryStore.rowAt, hm, hk]
      exact hholds
    · rw [MemoryStore.rowAt, hm, hk]
      exact h.hashes op' hop'
  · intro op' record hop' hrecord
    rcases hget op' hop' with ⟨hscope, hkey, hm, -⟩ | ⟨hm, -⟩
    · rw [hm] at hrecord
      rw [hscope, hkey]
      exact (hcell record hrecord).1
    · exact h.keyed op' record hop' (hm ▸ hrecord)
  · intro op' record hop' hrecord
    rcases hget op' hop' with ⟨-, -, hm, -⟩ | ⟨hm, -⟩
    · rw [hm] at hrecord
      exact (hcell record hrecord).2
    · exact h.storable op' record hop' (hm ▸ hrecord)

/-- A server with the same keys. -/
lemma keep {s' : RedisServer} (hkeys : s'.keys = s.keys) : RedisMirrors store m s' := by
  constructor
  · rw [hkeys]
    exact h.hashes
  · exact h.keyed
  · exact h.storable

/-- **`begin`** over the script is `begin` of the memory store. -/
lemma begin {op : Operation} (hop : Separated op.key) {opts : BeginOptions}
    (hpos : 0 < opts.ttlMs + store.grace) :
    (store.begin s op opts).1 = .ok (m.begin op opts).1
      ∧ RedisMirrors store (m.begin op opts).2 (store.begin s op opts).2 := by
  rcases run_beginCall op opts (h.hashes op hop) hpos with
    ⟨hclaim, keys, hash, hrun, hwritten, hfields⟩ | ⟨hclaim, row, fields, hfound, hf, hrun⟩
  · obtain ⟨loaded, hreply⟩ := store.begin_of_run hrun
    rcases m.begin_row op opts with ⟨-, hm⟩ | ⟨record, hcell, hrefused, -⟩
    · rw [hreply, hm]
      refine ⟨rfl, h.write hop (Option.Rel.some hfields) ?_ hwritten⟩
      rintro record ⟨⟩
      exact ⟨⟨rfl, rfl⟩, nofun, fun _ => ⟨rfl, rfl⟩⟩
    · rw [MemoryStore.rowAt, hcell, Option.map_some, hrefused] at hclaim
      cases hclaim
  · obtain ⟨loaded, hreply⟩ := store.begin_of_run hrun
    rcases m.begin_row op opts with ⟨hgranted, -⟩ | ⟨record, hcell, -, hm⟩
    · rw [hclaim] at hgranted
      cases hgranted
    · obtain rfl : recordToRow record = row := by
        rw [MemoryStore.rowAt, hcell, Option.map_some, Option.some.injEq] at hfound
        exact hfound
      obtain ⟨hscope, hkey⟩ := h.keyed op record hop hcell
      rw [hreply, hm, beginOutcome_refusal hf hscope hkey
        (rowToRecord_recordToRow (h.storable op record hop hcell))]
      exact ⟨rfl, h.keep rfl⟩

/-- **`complete`** over the script is `complete` of the memory store. -/
lemma complete {op : Operation} (hop : Separated op.key) (fence : ℤ) (result : Completion)
    (now : ℤ) :
    (store.complete s op fence result now).1 = .ok (m.complete op fence result now).1
      ∧ RedisMirrors store (m.complete op fence result now).2
        (store.complete s op fence result now).2 := by
  rcases run_completeCall (h.hashes op hop) fence result now with
    ⟨row, keys, hash, hfound, hsel, hrun, hwritten, hfields⟩ | ⟨hsel, text, hrun, hstatus⟩
  · obtain ⟨loaded, hreply⟩ := store.complete_of_run hrun
    rcases m.complete_row op fence result now with ⟨record, hcell, hstate, -, hm⟩ | ⟨hnone, -⟩
    · obtain rfl : recordToRow record = row := by
        rw [MemoryStore.rowAt, hcell, Option.map_some, Option.some.injEq] at hfound
        exact hfound
      have hst := h.storable op record hop hcell
      rw [completedRow_recordToRow hst hstate] at hfields
      rw [hreply, hm]
      refine ⟨rfl, h.write hop (Option.Rel.some hfields) ?_ hwritten⟩
      rintro _ ⟨⟩
      refine ⟨?_, storable_storeCompletion hst result⟩
      cases result <;> exact h.keyed op record hop hcell
    · rw [hfound, Option.filter_some, if_pos hsel] at hnone
      cases hnone
  · obtain ⟨loaded, hreply⟩ := store.complete_of_run hrun
    rcases m.complete_row op fence result now with ⟨record, hcell, -, hsel', -⟩ | ⟨-, hm⟩
    · rw [MemoryStore.rowAt, hcell, Option.map_some, Option.filter_some, if_pos hsel'] at hsel
      cases hsel
    · rw [hreply, hm, hstatus]
      exact ⟨rfl, h.keep rfl⟩

/-- **`abandon`** over the script is `abandon` of the memory store. -/
lemma abandon {op : Operation} (hop : Separated op.key) (fence : ℤ) :
    (store.abandon s op fence).1 = .ok (m.abandon op fence).1
      ∧ RedisMirrors store (m.abandon op fence).2 (store.abandon s op fence).2 := by
  rcases run_abandonCall (h.hashes op hop) fence with
    ⟨row, hfound, hsel, hrun⟩ | ⟨hsel, text, hrun, hstatus⟩
  · obtain ⟨loaded, hreply⟩ := store.abandon_of_run hrun
    rcases m.abandon_row op fence with ⟨record, hcell, -, hm⟩ | ⟨hnone, -⟩
    · rw [hreply, hm]
      refine ⟨rfl, h.write hop Option.Rel.none ?_ ?_⟩
      · rintro record ⟨⟩
      · exact fun k' => OrderedMap.get_delete s.keys (store.keyFor op) k'
    · rw [hfound, Option.filter_some, if_pos hsel] at hnone
      cases hnone
  · obtain ⟨loaded, hreply⟩ := store.abandon_of_run hrun
    rcases m.abandon_row op fence with ⟨record, hcell, hsel', -⟩ | ⟨-, hm⟩
    · rw [MemoryStore.rowAt, hcell, Option.map_some, Option.filter_some, if_pos hsel'] at hsel
      cases hsel
    · rw [hreply, hm, hstatus]
      exact ⟨rfl, h.keep rfl⟩

/-- **`get`** shows the record the memory store shows. -/
lemma get {op : Operation} (hop : Separated op.key) (now : ℤ) :
    store.get s op now = .ok (m.get op now) := by
  have hholds := h.hashes op hop
  rw [RedisStore.get, m.get_eq]
  generalize hget : s.keys.get (store.keyFor op) = hash at hholds
  cases hcell : m.cell op with
  | none =>
      rw [MemoryStore.rowAt, hcell] at hholds
      cases hholds
      rw [Keyspace.hash_of_none hget]
      rfl
  | some record =>
      rw [MemoryStore.rowAt, hcell] at hholds
      cases hholds with
      | some hf =>
          obtain ⟨hscope, hkey⟩ := h.keyed op record hop hcell
          have hrow := hashToRow_of_rowFields hf hscope hkey
          have hread := rowToRecord_recordToRow (h.storable op record hop hcell)
          simp only [Keyspace.hash_of_get hget, hf.fingerprint, hrow, hread, recordToRow_expiresAt]
          by_cases hlive : now < record.expiresAt
          · simp [hlive, ClaimModel.live, Option.filter, decoded, Except.map]
          · simp [hlive, ClaimModel.live, Option.filter]

end RedisMirrors

/-- **A granted claim leaves no field of the result before it.** -/
lemma RedisMirrors.begin_clears {store : RedisStore} {m : MemoryStore} {s : RedisServer}
    (h : RedisMirrors store m s) {op : Operation} (hop : Separated op.key) {opts : BeginOptions}
    (hpos : 0 < opts.ttlMs + store.grace) {fence : ℤ}
    (hout : (store.begin s op opts).1 = .ok (.Acquired fence)) :
    RowFields (Keyspace.hash (store.begin s op opts).2.keys (store.keyFor op))
      (claimRow op.columns opts.columns fence) := by
  have hm : (m.begin op opts).1 = .Acquired fence :=
    (Except.ok.inj ((h.begin hop hpos).1.symm.trans hout))
  rcases run_beginCall op opts (h.hashes op hop) hpos with
    ⟨-, keys, hash, hrun, hwritten, hfields⟩ | ⟨hclaim, -⟩
  · obtain ⟨loaded, hreply⟩ := store.begin_of_run hrun
    rw [hreply] at hout ⊢
    obtain rfl : (rowModel JsString).nextFence (m.rowAt op) = fence := by
      cases hout
      rfl
    have hget : keys.get (store.keyFor op) = some hash := (hwritten _).trans (if_pos rfl)
    show RowFields (Keyspace.hash keys (store.keyFor op)) _
    rw [Keyspace.hash_of_get hget]
    exact hfields
  · rcases m.begin_row op opts with ⟨hgranted, -⟩ | ⟨record, -, -, hrefused⟩
    · rw [hclaim] at hgranted
      cases hgranted
    · rw [hrefused] at hm
      exact absurd hm ClaimModel.classify_ne_acquired

/-- The calls the comparison is about: a key without separators, and a native expiry in the future.
A purge is left to the native expiry. -/
def StoreCall.RedisCall (store : RedisStore) : StoreCall Operation BeginOptions Completion → Prop
  | .Begin op opts => Separated op.key ∧ 0 < opts.ttlMs + store.grace
  | .Complete op _ _ _ => Separated op.key
  | .Abandon op _ => Separated op.key
  | .Get op _ => Separated op.key
  | .Purge _ => False
  | .PhysicallyRemove op => Separated op.key

instance (store : RedisStore) : DecidablePred (StoreCall.RedisCall store)
  | .Begin op opts =>
      inferInstanceAs (Decidable (Separated op.key ∧ 0 < opts.ttlMs + store.grace))
  | .Complete op _ _ _ => inferInstanceAs (Decidable (Separated op.key))
  | .Abandon op _ => inferInstanceAs (Decidable (Separated op.key))
  | .Get op _ => inferInstanceAs (Decidable (Separated op.key))
  | .Purge _ => inferInstanceAs (Decidable False)
  | .PhysicallyRemove op => inferInstanceAs (Decidable (Separated op.key))

/-- **`RedisStore` simulates the memory store.** -/
theorem RedisStore.simulates (store : RedisStore) :
    Simulates (StoreCall.RedisCall store) memoryMachine store.apply (RedisMirrors store) := by
  intro c m s hc h
  cases c with
  | Begin op opts => exact h.begin hc.1 hc.2
  | Complete op fence result now => exact h.complete hc fence result now
  | Abandon op fence => exact h.abandon hc fence
  | Get op now => exact ⟨h.get hc now, h⟩
  | Purge now => exact hc.elim
  | PhysicallyRemove op =>
      have hgone : RedisMirrors store (m.withCell op none) (store.physicallyRemove s op) := by
        refine h.write hc Option.Rel.none ?_ ?_
        · rintro record ⟨⟩
        · exact fun k' => OrderedMap.get_delete s.keys (store.keyFor op) k'
      exact ⟨rfl, hgone⟩

/-- **The Redis store refines the memory store.**  To every finite sequence of calls of `begin`,
`complete`, `abandon` and `get` (and removals), made one after another on stores that are empty at
first, whichever scripts the server has, `RedisStore` gives the replies `MemoryStore` gives.  And in
every state such calls lead to, a claim that is granted leaves no field of an earlier result. -/
theorem redis_store_refines_memory (store : RedisStore) (loaded : Script → Bool)
    (calls : List (StoreCall Operation BeginOptions Completion))
    (hcalls : ∀ c ∈ calls, c.RedisCall store) :
    replies store.apply calls ⟨Table.empty, loaded⟩ = replies memoryMachine calls MemoryStore.empty
      ∧ ∀ op opts fence s', Separated op.key → 0 < opts.ttlMs + store.grace →
        store.begin (after store.apply calls ⟨Table.empty, loaded⟩) op opts
          = (.ok (.Acquired fence), s') →
        (Keyspace.hash s'.keys (store.keyFor op)).get (js "result_meta") = none
          ∧ (Keyspace.hash s'.keys (store.keyFor op)).get (js "result_body") = none
          ∧ (Keyspace.hash s'.keys (store.keyFor op)).get (js "result_omitted") = some (js "0") := by
  refine ⟨store.simulates.replies_eq hcalls (redisMirrors_empty store loaded), ?_⟩
  intro op opts fence s' hop hpos hbegin
  have hmirrors := store.simulates.after hcalls (redisMirrors_empty store loaded)
  have hfields := hmirrors.begin_clears hop hpos (by rw [hbegin])
  rw [hbegin] at hfields
  exact ⟨hfields.resultMeta, hfields.resultBody, hfields.resultOmitted⟩

/-- A claim that is completed, a duplicate, the claim anew once the record has expired, and the record
of the new claim. -/
def renewCalls : List (StoreCall Operation BeginOptions Completion) :=
  [.Begin raceOp ⟨10, 100, 0⟩, .Complete raceOp 1 (.Stored { kind := .Http, body := some [7] }) 5,
    .Abandon raceOp 1, .Begin raceOp ⟨10, 100, 100⟩, .Get raceOp 105]

theorem redis_store_refines_memory_renew :
    (replies (RedisStore.apply {}) renewCalls ⟨Table.empty, fun _ => false⟩)
        = [⟨.Begin raceOp ⟨10, 100, 0⟩, .ok (.Acquired 1)⟩,
          ⟨.Complete raceOp 1 (.Stored { kind := .Http, body := some [7] }) 5, .ok .Ok⟩,
          ⟨.Abandon raceOp 1, .ok .NotFound⟩, ⟨.Begin raceOp ⟨10, 100, 100⟩, .ok (.Acquired 2)⟩,
          ⟨.Get raceOp 105, .ok (some (MemoryStore.newRecord raceOp ⟨10, 100, 100⟩ 2))⟩]
      ∧ (Keyspace.hash (RedisStore.begin {} (after (RedisStore.apply {}) (renewCalls.take 2)
          ⟨Table.empty, fun _ => true⟩) raceOp ⟨10, 100, 100⟩).2.keys
          (RedisStore.keyFor {} raceOp)).get (js "result_body") = none := by
  constructor
  · rw [(redis_store_refines_memory {} (fun _ => false) renewCalls (by decide)).1]
    rfl
  · exact ((redis_store_refines_memory {} (fun _ => true) (renewCalls.take 2) (by decide)).2 raceOp
      ⟨10, 100, 100⟩ 2 _ (by decide) (by decide) (Prod.ext (by decide +kernel) rfl)).2.1

end Anyonce
