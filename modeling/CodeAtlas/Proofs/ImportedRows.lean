import CodeAtlas.Proofs.Accounts
import CodeAtlas.Proofs.GraphStatements

/-!
# Rows of imports

An import writes one row or none. Of the courses that it can take (`ImportCourse`) one alone ends in
a row, and on this one the user was found, GitHub showed the repository (`Granted`), and no row of
the same user, owner and name was there. Conversely, an import that is granted access answers with
the first row that is there, and writes one if there is none.
-/

open List

namespace CodeAtlas

/-- Whether a query inserts into a table. -/
def Query.insertsInto (table : String) (q : Query) : Bool :=
  q.table == table && q.steps.any fun
    | .insert _ => true
    | _ => false

namespace Account

/-- `ownerAndName` are the last two components of an address without slashes at its end. -/
theorem ownerAndName_eq_ok_iff {url : Json} {owner name : String} :
    ownerAndName url = .ok (owner, name) ↔ ∃ address front, url = .text address ∧
      (address.toList.rdropWhile (· == '/')).splitOn '/' =
        front ++ [owner.toList, name.toList] := by
  have hparts : ∀ address : String,
      (Path.components (Path.dropTrailingSlashes address)).map String.toList =
        (address.toList.rdropWhile (· == '/')).splitOn '/' := by
    intro address
    simp [Path.components, Path.dropTrailingSlashes, Text.splitAt_eq_splitOn, rdropWhile,
      Function.comp_def]
  constructor
  · intro h
    unfold ownerAndName at h
    split at h
    next address =>
      unfold ownerAndName? at h
      split at h
      next found hfound =>
        split at hfound
        next front hreverse =>
          cases hfound
          cases h
          rw [reverse_eq_iff] at hreverse
          exact ⟨address, front.reverse.map String.toList, rfl, by simp [← hparts, hreverse]⟩
        next => cases hfound
      next => cases h
    next => cases h
  · rintro ⟨address, front, rfl, hsplit⟩
    have hcomponents : Path.components (Path.dropTrailingSlashes address) =
        front.map String.ofList ++ [owner, name] := by
      have hmap := congrArg (map String.ofList) ((hparts address).trans hsplit)
      simpa using hmap
    simp [ownerAndName, ownerAndName?, hcomponents]

variable {url user : Json} {s : Services} {d : Desk}

/-- GitHub grants a user access to the repository that an address names: the address ends with its
owner and its name, the user's token is stored, and asked with it, GitHub answers with status 200
and a body that is not empty. -/
structure Granted (url user : Json) (s : Services) (d : Desk) (owner name : String)
    (token body : Json) : Prop where
  named : ∃ address front, url = .text address ∧
    (address.toList.rdropWhile (· == '/')).splitOn '/' = front ++ [owner.toList, name.toList]
  account : ∃ account, s.database d.record.queries.length (accessQuery user) = .ok account ∧
    account.field "access_token" = .ok token
  reply : s.web d.record.requests.length (repositoryRequest owner name token) = .ok ⟨200, body⟩
  body : body.isTruthy = true

/-- What `Shows` says of a repository that can be seen is that access is granted. -/
theorem granted_iff_shows {owner name : String} {token body : Json} :
    Granted url user s d owner name token body ↔
      Shows url user s d owner name token body ∧ body.isTruthy = true := by
  constructor
  · intro h
    exact ⟨⟨ownerAndName_eq_ok_iff.mpr h.named, h.account, _, h.reply, rfl⟩, h.body⟩
  · rintro ⟨hshows, hbody⟩
    obtain ⟨⟨status, body'⟩, hreply, hshown⟩ := hshows.reply
    unfold shown at hshown
    split at hshown
    next hstatus =>
      change status = 200 at hstatus
      change body' = body at hshown
      rw [hstatus, hshown] at hreply
      exact ⟨ownerAndName_eq_ok_iff.mp hshows.named, hshows.account, hreply, hbody⟩
    next =>
      rw [← hshown] at hbody
      cases hbody

/-- An address, a user and the answers leave one repository that GitHub `Shows`. -/
theorem Shows.unique {owner owner' name name' : String} {token token' found found' : Json}
    (h : Shows url user s d owner name token found)
    (h' : Shows url user s d owner' name' token' found') :
    owner = owner' ∧ name = name' ∧ token = token' ∧ found = found' := by
  have hnamed := h.named.symm.trans h'.named
  cases hnamed
  obtain ⟨account, haccount, htoken⟩ := h.account
  obtain ⟨account', haccount', htoken'⟩ := h'.account
  cases haccount.symm.trans haccount'
  cases htoken.symm.trans htoken'
  obtain ⟨reply, hreply, rfl⟩ := h.reply
  obtain ⟨reply', hreply', rfl⟩ := h'.reply
  cases hreply.symm.trans hreply'
  exact ⟨rfl, rfl, rfl, rfl⟩

variable {result : Except Failure Json} {queries : List Query} {requests : List WebRequest}

/-- One course alone inserts a row, at its end, where access is `Granted` and no row found. -/
theorem ImportCourse.inserts (h : ImportCourse url user s d result queries requests) :
    queries.filter (Query.insertsInto "repos") = [] ∨
      ∃ owner name token body existing isPrivate, Granted url user s d owner name token body ∧
        requests = [repositoryRequest owner name token] ∧
        s.database (d.record.queries.length + 1) (importsQuery user owner name) = .ok existing ∧
        existing.isTruthy = false ∧ body.field "private" = .ok isPrivate ∧
        queries = [accessQuery user, importsQuery user owner name,
          importQuery user owner name isPrivate] := by
  cases h with
  | inserted hshows hfound hexisting hfresh hprivate =>
    exact .inr ⟨_, _, _, _, _, _, granted_iff_shows.mpr ⟨hshows, hfound⟩, rfl, hexisting, hfresh,
      hprivate, rfl⟩
  | _ => exact .inl rfl

/-- Where access is `Granted`, the import looks for rows: it ends with the first of them, or else
inserts one. -/
theorem ImportCourse.of_granted (h : ImportCourse url user s d result queries requests)
    {owner name : String} {token body existing : Json}
    (hgranted : Granted url user s d owner name token body)
    (hexisting : s.database (d.record.queries.length + 1) (importsQuery user owner name) =
      .ok existing) :
    (existing.isTruthy = true → result = existing.first.mapError .access ∧
        queries = [accessQuery user, importsQuery user owner name]) ∧
      (existing.isTruthy = false → ∀ isPrivate, body.field "private" = .ok isPrivate →
        queries = [accessQuery user, importsQuery user owner name,
          importQuery user owner name isPrivate]) := by
  obtain ⟨hshows, hbody⟩ := granted_iff_shows.mp hgranted
  obtain ⟨account, haccount, htoken⟩ := hshows.account
  -- the courses before the inquiry contradict what was granted
  cases h with
  | unnamed hnamed => rw [hshows.named] at hnamed; cases hnamed
  | unknown _ hunknown => rw [haccount] at hunknown; cases hunknown
  | withoutToken _ haccount' hmissing =>
    cases haccount.symm.trans haccount'
    rw [htoken] at hmissing
    cases hmissing
  | unanswered hnamed haccount' htoken' hweb =>
    cases haccount.symm.trans haccount'
    cases htoken.symm.trans htoken'
    cases hshows.named.symm.trans hnamed
    rw [hgranted.reply] at hweb
    cases hweb
  | denied hshows' hdenied =>
    obtain ⟨-, -, -, rfl⟩ := hshows.unique hshows'
    rw [hbody] at hdenied
    cases hdenied
  | unlisted hshows' _ hfailed =>
    obtain ⟨rfl, rfl, -, -⟩ := hshows.unique hshows'
    rw [hexisting] at hfailed
    cases hfailed
  | present hshows' _ hexisting' hrow =>
    obtain ⟨rfl, rfl, -, -⟩ := hshows.unique hshows'
    cases hexisting.symm.trans hexisting'
    exact ⟨fun _ => ⟨rfl, rfl⟩, fun hfresh => absurd hfresh (by simp [hrow])⟩
  | unmarked hshows' _ hexisting' hfresh hunmarked =>
    obtain ⟨rfl, rfl, -, rfl⟩ := hshows.unique hshows'
    cases hexisting.symm.trans hexisting'
    refine ⟨fun hrow => absurd hrow (by simp [hfresh]), fun _ isPrivate hprivate => ?_⟩
    rw [hprivate] at hunmarked
    cases hunmarked
  | inserted hshows' _ hexisting' hfresh hprivate' =>
    obtain ⟨rfl, rfl, -, rfl⟩ := hshows.unique hshows'
    cases hexisting.symm.trans hexisting'
    refine ⟨fun hrow => absurd hrow (by simp [hfresh]), fun _ isPrivate hprivate => ?_⟩
    cases hprivate.symm.trans hprivate'
    rfl

/-- **An import writes at most one row, and only where access is granted and no row is found.** Of
what it asks of the database at most one query inserts into the table of repositories. If one does,
it is the last of three, and inserts the user, the owner and the name that were looked up. Where
access is granted, a lookup with rows gives the first of them as the answer, and nothing is
inserted; a lookup without rows leads to the insertion. -/
theorem import_inserts_once (url user : Json) (s : Services) (d : Desk) :
    ∃ result queries requests,
      importRepository url user s d = (result, d.asking queries requests) ∧
      (queries.filter (Query.insertsInto "repos")).length ≤ 1 ∧
      (∀ q ∈ queries, q.insertsInto "repos" = true →
        ∃ owner name token body existing isPrivate, Granted url user s d owner name token body ∧
          requests = [repositoryRequest owner name token] ∧
          s.database (d.record.queries.length + 1) (importsQuery user owner name) = .ok existing ∧
          existing.isTruthy = false ∧ body.field "private" = .ok isPrivate ∧
          q = importQuery user owner name isPrivate ∧
          queries = [accessQuery user, importsQuery user owner name, q]) ∧
      ∀ owner name token body, Granted url user s d owner name token body →
        (∀ row more,
          s.database (d.record.queries.length + 1) (importsQuery user owner name) =
            .ok (.array (row :: more)) →
          result = .ok row ∧ queries.filter (Query.insertsInto "repos") = []) ∧
        ∀ isPrivate, body.field "private" = .ok isPrivate →
          s.database (d.record.queries.length + 1) (importsQuery user owner name) =
            .ok (.array []) →
          importQuery user owner name isPrivate ∈ queries := by
  obtain ⟨result, queries, requests, hcourse, hrun⟩ := importRepository_course url user s d
  refine ⟨_, queries, requests, hrun, ?_, ?_, fun owner name token body hgranted => ⟨?_, ?_⟩⟩
  · rcases hcourse.inserts with hnone | ⟨owner, name, token, body, existing, isPrivate, -, -, -, -,
      -, rfl⟩
    · rw [hnone]
      exact Nat.zero_le 1
    · exact Nat.le_refl 1
  · intro q hq hinserts
    rcases hcourse.inserts with hnone | ⟨owner, name, token, body, existing, isPrivate, hgranted,
      hrequests, hexisting, hfresh, hprivate, rfl⟩
    · exact absurd (mem_filter.mpr ⟨hq, hinserts⟩) (by simp [hnone])
    · refine ⟨owner, name, token, body, existing, isPrivate, hgranted, hrequests, hexisting, hfresh,
        hprivate, ?_⟩
      simp only [mem_cons, not_mem_nil, or_false] at hq
      rcases hq with rfl | rfl | rfl
      · cases hinserts
      · cases hinserts
      · exact ⟨rfl, rfl⟩
  · intro row more hrow
    obtain ⟨rfl, rfl⟩ := (hcourse.of_granted hgranted hrow).1 rfl
    exact ⟨rfl, rfl⟩
  · intro isPrivate hprivate hnone
    rw [(hcourse.of_granted hgranted hnone).2 rfl isPrivate hprivate]
    simp

end Account

end CodeAtlas
