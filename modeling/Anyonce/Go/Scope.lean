import Anyonce.Go.Url
import Anyonce.Http.Scope

/-!
# The Go scope of a request, and what scopes keep apart

`DefaultScope` of `go/internal/httpx/request.go` and `resolveScope` of `go/httpmw/request.go`.  The
three parts of a scope are joined without escaping.  The method may have a hash and the principal may
have anything, but no token has a space and no encoded path a hash: so the first space ends the method,
and the first hash behind it the path.

* `scopes_separate_principals` — in both languages, equal scopes are those of one method, one path and
  one principal.
-/

namespace Anyonce.Go

/-- The parts of an `http.Request` that scopes are made of.  The server admits tokens as methods only. -/
structure HttpRequest where
  method : GoString
  token : ∀ b ∈ method, validHeaderFieldByte b = true
  url : URL
  header : Header

/-- No token has a space. -/
lemma HttpRequest.space_not_mem (r : HttpRequest) : 0x20 ∉ r.method := by
  intro h
  exact absurd (r.token 0x20 h) (by decide)

/-- D8 without a route pattern. -/
def defaultScope (r : HttpRequest) : GoString := r.method ++ 0x20 :: r.url.escapedPath

/-- What `resolveScope` reads of the options. -/
structure HttpOptions where
  scope : Option (HttpRequest → GoString) := none
  principal : Option (HttpRequest → GoString) := none
  requirePrincipal : Bool := false

/-- `ResolveScope`: the scope of a request, and whether it has the principal it needs. -/
def resolveScope (r : HttpRequest) (o : HttpOptions) : GoString × Bool :=
  let scope := match o.scope with
    | some scope => scope r
    | none => defaultScope r
  match o.principal with
  | none => (scope, true)
  | some principalOf =>
      let principal := principalOf r
      if principal = [] then if o.requirePrincipal then ([], false) else (scope, true)
      else (scope ++ 0x23 :: principal, true)

/-- The principal of a request: an empty one counts as none. -/
def HttpOptions.principalOf (o : HttpOptions) (r : HttpRequest) : Option GoString :=
  Separator.given (o.principal.map fun principal => principal r)

/-- **The scope over the default base.** -/
lemma resolveScope_eq {r : HttpRequest} {o : HttpOptions} {scope : GoString}
    (hscope : o.scope = none) (h : resolveScope r o = (scope, true)) :
    scope = r.method ++ 0x20 :: Separator.join 0x23 (r.url.escapedPath, o.principalOf r) := by
  have hbase : ∀ second, Separator.join 0x23 (defaultScope r, second)
      = r.method ++ 0x20 :: Separator.join 0x23 (r.url.escapedPath, second) := by
    intro second
    rw [defaultScope, Separator.join_append, Separator.join_cons]
  rw [← hbase]
  unfold resolveScope at h
  unfold HttpOptions.principalOf
  rw [hscope] at h
  cases hp : o.principal with
  | none =>
      rw [hp] at h
      cases h
      rfl
  | some principal =>
      simp only [hp] at h
      by_cases htext : principal r = []
      · rw [if_pos htext] at h
        split_ifs at h
        · cases h
        · cases h
          simp only [Option.map_some, htext, Separator.given_nil]
          rfl
      · rw [if_neg htext] at h
        cases h
        simp only [Option.map_some, Separator.given_of_ne htext]
        rfl

/-- **Scopes tell requests apart**: with the default base they are equal only for one method, one path
and one principal. -/
lemma resolveScope_eq_iff {r r' : HttpRequest} {o o' : HttpOptions} {scope scope' : GoString}
    (hscope : o.scope = none) (hscope' : o'.scope = none) (h : resolveScope r o = (scope, true))
    (h' : resolveScope r' o' = (scope', true)) :
    scope = scope' ↔ r.method = r'.method ∧ r.url.escapedPath = r'.url.escapedPath
      ∧ o.principalOf r = o'.principalOf r' := by
  rw [resolveScope_eq hscope h, resolveScope_eq hscope' h']
  constructor
  · intro heq
    obtain ⟨hmethod, hrest⟩ := Separator.append_join_inj r.space_not_mem r'.space_not_mem
      r.url.hash_not_mem r'.url.hash_not_mem heq
    exact ⟨hmethod, Prod.mk.inj hrest⟩
  · rintro ⟨hmethod, hpath, hprincipal⟩
    rw [hmethod, hpath, hprincipal]

end Anyonce.Go

namespace Anyonce

/-- **Scopes separate principals and routes.**  Of two requests a door lets through over the default
base, the scopes are equal only when method, path and principal are, whatever the principals contain; an
absent or empty principal is none, and differs from every other. -/
theorem scopes_separate_principals :
    (∀ (req req' : Request) (options options' : ResolvedHttpOptions) (scope scope' : JsString),
      options.scope = none → options'.scope = none → resolveScope req options none = .Ok scope →
      resolveScope req' options' none = .Ok scope' →
      (scope = scope' ↔ req.method = req'.method ∧ req.url.pathname = req'.url.pathname
        ∧ options.principalOf req = options'.principalOf req'))
    ∧ ∀ (r r' : Go.HttpRequest) (o o' : Go.HttpOptions) (scope scope' : Go.GoString),
      o.scope = none → o'.scope = none → Go.resolveScope r o = (scope, true) →
      Go.resolveScope r' o' = (scope', true) →
      (scope = scope' ↔ r.method = r'.method ∧ r.url.escapedPath = r'.url.escapedPath
        ∧ o.principalOf r = o'.principalOf r') :=
  ⟨fun _ _ _ _ _ _ => resolveScope_eq_iff, fun _ _ _ _ _ _ => Go.resolveScope_eq_iff⟩

/-- The path `/a b` with its space encoded, under a method with a hash. -/
def spacedRequest : Request where
  method := js "PO#ST"
  token := List.all_iff_forall_prop.mp (by decide +kernel)
  url := ⟨js "/a%20b", [], List.all_iff_forall_prop.mp (by decide +kernel)⟩
  headers := ⟨[]⟩
  body := none

def Go.spacedRequest : Go.HttpRequest where
  method := ascii "PO#ST"
  token := List.all_iff_forall_prop.mp (by decide +kernel)
  url := ⟨ascii "/a b", []⟩
  header := Relational.Table.empty

/-- A principal that reads like a path and another principal, and the anonymous caller. -/
theorem scopes_separate_principals_anonymous :
    js "PO#ST /a%20b#/b#alice" ≠ js "PO#ST /a%20b"
      ∧ Go.ascii "PO#ST /a%20b#/b#alice" ≠ Go.ascii "PO#ST /a%20b" := by
  obtain ⟨hts, hgo⟩ := scopes_separate_principals
  constructor
  · intro heq
    have h := (hts spacedRequest spacedRequest { principal := some fun _ => some (js "/b#alice") } {}
      _ _ rfl rfl rfl rfl).mp heq
    exact absurd h.2.2 (by decide)
  · intro heq
    have h := (hgo Go.spacedRequest Go.spacedRequest
      { principal := some fun _ => Go.ascii "/b#alice" } {} _ _ rfl rfl (by decide) (by decide)).mp heq
    exact absurd h.2.2 (by decide)

end Anyonce
