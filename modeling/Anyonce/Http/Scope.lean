import Anyonce.Core.Separator
import Anyonce.Http.Request

/-!
# The scope of a request

`defaultScope` and `resolveScope` of `packages/core/src/http/request.ts`.  The method of a `Request` is
a token and the pathname of its URL is percent-encoded, as the Fetch and URL standards have them.  A
principal is whatever the user's function returns.

* `resolveScope` — the scope, or the refusal of a request without a principal.
* `resolveScope_default` — with the default base: method, space, path, and the principal after a hash.
-/

namespace Anyonce

/-! ## Requests -/

/-- `tchar` of RFC 9110: a letter, a digit or one of the marks. -/
def isTokenUnit (u : UInt16) : Bool :=
  (0x41 ≤ u && u ≤ 0x5a) || (0x61 ≤ u && u ≤ 0x7a) || (0x30 ≤ u && u ≤ 0x39)
    || (js "!#$%&'*+-.^_`|~").contains u

/-- A name a header may have. -/
def IsHeaderName (name : JsString) : Prop := name ≠ [] ∧ ∀ u ∈ name, isTokenUnit u = true

instance : DecidablePred IsHeaderName := fun name =>
  decidable_of_iff (name ≠ [] ∧ name.all isTokenUnit = true) (and_congr_right' List.all_eq_true)

/-- The path percent-encode set of the URL standard. -/
def inPathPercentEncodeSet (u : UInt16) : Bool :=
  u ≤ 0x1f || 0x7e < u || (js " \"#<>?`\x7b\x7d").contains u

/-- The `URL` of a request, whose pathname keeps its percent encoding. -/
structure Url where
  pathname : JsString
  search : JsString
  encoded : ∀ u ∈ pathname, inPathPercentEncodeSet u = false

/-- What the bridge reads of a request.  A method is a token, as every request has it. -/
structure Request where
  method : JsString
  token : ∀ u ∈ method, isTokenUnit u = true
  url : Url
  headers : Headers
  body : Option (List UInt8)

/-- No token has a space. -/
lemma Request.space_not_mem (req : Request) : 0x20 ∉ req.method := by
  intro h
  exact absurd (req.token 0x20 h) (by decide)

/-- No path has a hash. -/
lemma Url.hash_not_mem (url : Url) : 0x23 ∉ url.pathname := by
  intro h
  exact absurd (url.encoded 0x23 h) (by decide)

/-! ## Scopes -/

/-- D8 default when no router pattern is available. -/
def defaultScope (req : Request) : JsString := req.method ++ 0x20 :: req.url.pathname

/-- What `resolveScope` reads of the options. -/
structure ResolvedHttpOptions where
  scope : Option (Request → JsString) := none
  principal : Option (Request → Option JsString) := none
  requirePrincipal : Bool := false

/-- A scope, or the problem of a request without a principal. -/
inductive ScopeResult
  | Ok (scope : JsString)
  | MissingPrincipal
  deriving DecidableEq

/-- `resolveScope`: the user's scope, the route's or the default one, and the principal after a `#` where there is one. -/
def resolveScope (req : Request) (options : ResolvedHttpOptions) (routeScope : Option JsString) :
    ScopeResult :=
  let base := match options.scope with
    | some scope => scope req
    | none => routeScope.getD (defaultScope req)
  match options.principal with
  | none => .Ok base
  | some principal =>
      match principal req with
      | none => if options.requirePrincipal then .MissingPrincipal else .Ok base
      | some text =>
          if text = [] then if options.requirePrincipal then .MissingPrincipal else .Ok base
          else .Ok (base ++ 0x23 :: text)

/-- The principal of a request: an absent or empty one counts as none. -/
def ResolvedHttpOptions.principalOf (options : ResolvedHttpOptions) (req : Request) :
    Option JsString :=
  match options.principal with
  | none => none
  | some principal => Separator.given (principal req)

/-- **The scope over a base**: the base alone, or the base and the principal after a hash. -/
lemma resolveScope_eq_ok {req : Request} {options : ResolvedHttpOptions} {scope : JsString}
    (hscope : options.scope = none) (h : resolveScope req options none = .Ok scope) :
    scope = req.method ++ 0x20 :: Separator.join 0x23 (req.url.pathname, options.principalOf req) := by
  have hbase : ∀ second, Separator.join 0x23 (defaultScope req, second)
      = req.method ++ 0x20 :: Separator.join 0x23 (req.url.pathname, second) := by
    intro second
    rw [defaultScope, Separator.join_append, Separator.join_cons]
  rw [← hbase]
  unfold resolveScope at h
  unfold ResolvedHttpOptions.principalOf
  rw [hscope] at h
  cases hp : options.principal with
  | none =>
      rw [hp] at h
      cases h
      rfl
  | some principal =>
      simp only [hp] at h
      cases hreq : principal req with
      | none =>
          simp only [hreq] at h
          split_ifs at h
          cases h
          simp only [hreq, Separator.given_none]
          rfl
      | some text =>
          simp only [hreq] at h
          by_cases htext : text = []
          · rw [if_pos htext] at h
            split_ifs at h
            cases h
            simp only [hreq, htext, Separator.given_nil]
            rfl
          · rw [if_neg htext] at h
            cases h
            simp only [hreq, Separator.given_of_ne htext]
            rfl

/-- **Scopes tell requests apart**: with the default base they are equal only for one method, one path
and one principal. -/
lemma resolveScope_eq_iff {req req' : Request} {options options' : ResolvedHttpOptions}
    {scope scope' : JsString} (hscope : options.scope = none) (hscope' : options'.scope = none)
    (h : resolveScope req options none = .Ok scope)
    (h' : resolveScope req' options' none = .Ok scope') :
    scope = scope' ↔ req.method = req'.method ∧ req.url.pathname = req'.url.pathname
      ∧ options.principalOf req = options'.principalOf req' := by
  rw [resolveScope_eq_ok hscope h, resolveScope_eq_ok hscope' h']
  constructor
  · intro heq
    obtain ⟨hmethod, hrest⟩ := Separator.append_join_inj req.space_not_mem req'.space_not_mem
      req.url.hash_not_mem req'.url.hash_not_mem heq
    exact ⟨hmethod, Prod.mk.inj hrest⟩
  · rintro ⟨hmethod, hpath, hprincipal⟩
    rw [hmethod, hpath, hprincipal]

end Anyonce
