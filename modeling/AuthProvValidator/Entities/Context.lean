import AuthProvValidator.Base.Entries
import AuthProvValidator.Base.Multimap
import AuthProvValidator.Base.Text

/-!
# Tracing headers

A `Context` keeps the tracing headers of a request, to be sent back with the reply.

* `Context.copyTracingHeaders` : the headers of a request that are tracing headers, each name with one value;
* `mem_copyTracingHeaders` : a header is copied exactly when its name is a tracing key and its value is the one of that
  name that the request goes through last.

Headers are kept in a `std::unordered_multimap`, whose order is that of its implementation (`Multimap`): where a name
has several values, the last one need not be the one that came in last.
-/

namespace AuthProvValidator

/-- `std::tolower` in the C locale. -/
def Str.tolower (c : Char) : Char := if 'A' ≤ c ∧ c ≤ 'Z' then Char.ofNat (c.toNat + 32) else c

/-- `boost::algorithm::to_lower_copy` -/
def Str.to_lower_copy (s : Str) : Str := s.map Str.tolower

def TRACING_KEYS : List Str :=
  ["x-request-id", "x-b3-traceid", "x-b3-spanid", "x-b3-parentspanid", "x-b3-sampled", "x-b3-flags",
   "x-ot-span-context"]

/-- `Headers` is `contextdata_t`, a multimap of texts. -/
structure Context (Headers : Type) [Multimap Headers Str Str] where
  tracingHeaders : Headers := Multimap.empty

namespace Context

variable {Headers : Type} [Multimap Headers Str Str]

def isTracingHeader (headerKey : Str) : Bool := TRACING_KEYS.contains (Str.to_lower_copy headerKey)

def update (ctx : Context Headers) (key value : Str) : Context Headers where
  tracingHeaders :=
    if Multimap.contains ctx.tracingHeaders key then Multimap.assign ctx.tracingHeaders key value
    else Multimap.emplace ctx.tracingHeaders key value

def copyTracingHeaders (ctx : Context Headers) (headers : Headers) : Context Headers :=
  (Multimap.elements headers).foldl
    (fun ctx header => if isTracingHeader header.1 then ctx.update header.1 header.2 else ctx) ctx

section Copy
variable {ctx : Context Headers} {es hs : List (Str × Str)} {headers : Headers} {n v : Str}

/-- The tracing headers among those that are gone through are put in one after the other. -/
theorem latest_foldl_update (h : Multimap.Latest ctx.tracingHeaders es) :
    Multimap.Latest (hs.foldl
      (fun ctx header => if isTracingHeader header.1 then ctx.update header.1 header.2 else ctx) ctx).tracingHeaders
      (es ++ hs.filter fun header => isTracingHeader header.1) := by
  induction hs generalizing ctx es with
  | nil => rwa [List.filter_nil, List.append_nil]
  | cons header hs ih =>
    rw [List.foldl_cons, List.filter_cons]
    by_cases hkey : isTracingHeader header.1 = true
    · rw [if_pos hkey, if_pos hkey, List.append_cons]
      exact ih h.set
    · rw [if_neg hkey, if_neg hkey]
      exact ih h

theorem latest_copyTracingHeaders : Multimap.Latest (({} : Context Headers).copyTracingHeaders headers).tracingHeaders
    ((Multimap.elements headers).filter fun header => isTracingHeader header.1) :=
  latest_foldl_update Multimap.latest_empty

/-- **The headers that are copied**: of each name that is a tracing key, the one gone through last. -/
theorem mem_copyTracingHeaders :
    (n, v) ∈ Multimap.elements (({} : Context Headers).copyTracingHeaders headers).tracingHeaders ↔
      isTracingHeader n = true ∧ (Multimap.elements headers).reverse.lookup n = some v := by
  rw [latest_copyTracingHeaders.mem_iff, ← List.filter_reverse, Entries.lookup_filter]
  constructor
  · intro h
    split at h
    · rename_i hkey
      exact ⟨hkey, h⟩
    · cases h
  · intro h
    rw [if_pos h.1, h.2]

end Copy

end Context

end AuthProvValidator
