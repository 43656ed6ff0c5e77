import Mathlib.Tactic.Common
import StorageHealth.Driver.Session

/-!
# Listings that come in pages

A listing asks for one page after the other, each time with the token that the page before ended
with.  Pages with a next token are followed (`Followed`), up to the first one without, which
completes the listing, or up to a reply that holds no page, and then nothing else comes of it.

A complete listing has the last condition that any entry has for a volume
(`Conditions.get?_foldl_take`); entries that lack something are passed over.
-/

namespace StorageHealth

open Wire

/-! ## Conditions of entries -/

namespace Conditions

/-- The condition that an entry has for a volume; it must name the volume and have a status with a
condition. -/
def inEntry (id : String) : VolumeEntry → Option Condition
  | ⟨some volume, some status⟩ => if volume.id = id then status.condition else none
  | _ => none

/-- The last condition that any of the entries has for a volume. -/
def lastAmong (id : String) (entries : List VolumeEntry) : Option Condition :=
  (entries.filterMap (inEntry id)).getLast?

lemma get?_take (known : Conditions) (e : VolumeEntry) (id : String) :
    Table.get? (known.take e) id = (inEntry id e).or (Table.get? known id) := by
  obtain ⟨volume, status⟩ := e
  cases volume with
  | none => rfl
  | some v =>
    cases status with
    | none => rfl
    | some s =>
      have hcondition : (⟨some v, some s⟩ : VolumeEntry).condition = s.condition := rfl
      cases hc : s.condition with
      | none => simp [take, inEntry, hcondition, hc]
      | some cond =>
        simp only [take, inEntry, hcondition, hc, Table.get?_insert]
        by_cases hid : v.id = id <;> simp [hid]

lemma distinct_take {known : Conditions} (h : Table.Distinct known) (e : VolumeEntry) :
    Table.Distinct (known.take e) := by
  unfold take
  split
  · exact Table.Distinct.insert h _ _
  · exact h

/-- Entries that are taken up overrule what was known, and each other from the first to the last. -/
lemma get?_foldl_take (known : Conditions) (entries : List VolumeEntry) (id : String) :
    Table.get? (entries.foldl take known) id =
      (lastAmong id entries).or (Table.get? known id) := by
  induction entries generalizing known with
  | nil => rfl
  | cons e rest ih =>
    rw [List.foldl_cons, ih, get?_take, ← Option.or_assoc]
    congr 1
    cases he : inEntry id e with
    | none => rw [lastAmong, lastAmong, List.filterMap_cons_none he, Option.or_none]
    | some cond =>
      rw [lastAmong, lastAmong, List.filterMap_cons_some he, List.getLast?_cons]
      cases (rest.filterMap (inEntry id)).getLast? <;> rfl

lemma foldl_takePage (known : Conditions) (pages : List ListPage) :
    pages.foldl takePage known = (pages.flatMap ListPage.entries).foldl take known := by
  induction pages generalizing known with
  | nil => rfl
  | cons p rest ih =>
    rw [List.foldl_cons, ih, List.flatMap_cons, List.foldl_append]
    rfl

lemma distinct_foldl_take {known : Conditions} (h : Table.Distinct known)
    (entries : List VolumeEntry) : Table.Distinct (entries.foldl take known) := by
  induction entries generalizing known with
  | nil => exact h
  | cons e rest ih => exact ih (distinct_take h e)

end Conditions

/-! ## Pages -/

/-- What a reply to a request for a page holds. -/
def Reply.page (r : Reply) : Except DriverError ListPage := r.decode .listVolumes

namespace Talk

/-- The first replies hold pages, and each of these has a next token. -/
def Followed (replies : List Reply) (pages : List ListPage) : Prop :=
  ∀ i p, pages[i]? = some p → (replies.getD i .exhausted).page = .ok p ∧ p.nextToken ≠ ""

lemma Followed.cons {r : Reply} {rest : List Reply} {page : ListPage} {pages : List ListPage}
    (h : Followed rest pages) (hpage : r.page = .ok page) (htoken : page.nextToken ≠ "") :
    Followed (r :: rest) (page :: pages) := by
  intro i p hp
  cases i with
  | zero =>
    obtain rfl : page = p := Option.some.inj hp
    exact ⟨hpage, htoken⟩
  | succ i => exact h i p hp

lemma followed_nil (replies : List Reply) : Followed replies [] :=
  fun i p hp => by cases hp

section PagesFrom

variable {token : String} {known : Conditions} {r : Reply} {rest : List Reply} {page : ListPage}

lemma pagesFrom_of_error {e : DriverError} (h : r.page = .error e) :
    pagesFrom token known (r :: rest) = ⟨.error e, [pageRequest token], rest⟩ := by
  have hdecode : (r.decode .listVolumes : Except DriverError ListPage) = .error e := h
  rw [pagesFrom, hdecode]

lemma pagesFrom_of_last (h : r.page = .ok page) (htoken : page.nextToken = "") :
    pagesFrom token known (r :: rest) = ⟨.ok (known.takePage page), [pageRequest token], rest⟩ := by
  have hdecode : (r.decode .listVolumes : Except DriverError ListPage) = .ok page := h
  simp only [pagesFrom, hdecode, if_pos htoken]

lemma pagesFrom_of_next (h : r.page = .ok page) (htoken : page.nextToken ≠ "") :
    pagesFrom token known (r :: rest) =
      ⟨(pagesFrom page.nextToken (known.takePage page) rest).result,
        pageRequest token :: (pagesFrom page.nextToken (known.takePage page) rest).sent,
        (pagesFrom page.nextToken (known.takePage page) rest).rest⟩ := by
  have hdecode : (r.decode .listVolumes : Except DriverError ListPage) = .ok page := h
  simp only [pagesFrom, hdecode, if_neg htoken]

end PagesFrom

/-- A listing follows pages and ends with the reply after them. -/
lemma pagesFrom_pages (token : String) (known : Conditions) (replies : List Reply) :
    ∃ pages, Followed replies pages ∧
      (pagesFrom token known replies).sent =
        (token :: pages.map ListPage.nextToken).map pageRequest ∧
      ((∃ last, (replies.getD pages.length .exhausted).page = .ok last ∧ last.nextToken = "" ∧
          (pagesFrom token known replies).result =
            .ok ((pages ++ [last]).foldl Conditions.takePage known)) ∨
        ∃ e, (replies.getD pages.length .exhausted).page = .error e ∧
          (pagesFrom token known replies).result = .error e) := by
  induction replies generalizing token known with
  | nil => exact ⟨[], followed_nil _, rfl, Or.inr ⟨_, rfl, rfl⟩⟩
  | cons r rest ih =>
    cases hpage : r.page with
    | error e =>
      rw [pagesFrom_of_error hpage]
      exact ⟨[], followed_nil _, rfl, Or.inr ⟨e, hpage, rfl⟩⟩
    | ok page =>
      by_cases htoken : page.nextToken = ""
      · rw [pagesFrom_of_last hpage htoken]
        exact ⟨[], followed_nil _, rfl, Or.inl ⟨page, hpage, htoken, rfl⟩⟩
      · rw [pagesFrom_of_next hpage htoken]
        obtain ⟨pages, hfollowed, hsent, hend⟩ := ih page.nextToken (known.takePage page)
        refine ⟨page :: pages, hfollowed.cons hpage htoken, ?_, hend⟩
        exact congrArg (pageRequest token :: ·) hsent

/-- A listing starts without a token and asks for the next page with the token of the page before,
until a page has none.  Then it has found, for each volume, the last condition that any entry of the
pages has for it.  If a reply before that holds no page, this is all that comes of the listing. -/
theorem listConditions_pages (replies : List Reply) :
    ∃ pages, Followed replies pages ∧
      (listConditions replies).sent = ("" :: pages.map ListPage.nextToken).map (fun token =>
        ⟨.listVolumes, Message.encode (⟨0, token⟩ : ListRequest)⟩) ∧
      ((∃ last known, (replies.getD pages.length .exhausted).page = .ok last ∧
          last.nextToken = "" ∧ (listConditions replies).result = .ok known ∧
          Table.Distinct known ∧
          ∀ id, Table.get? known id =
            Conditions.lastAmong id ((pages ++ [last]).flatMap ListPage.entries)) ∨
        ∃ e, (replies.getD pages.length .exhausted).page = .error e ∧
          (listConditions replies).result = .error e) := by
  obtain ⟨pages, hfollowed, hsent, hend⟩ := pagesFrom_pages "" Table.empty replies
  refine ⟨pages, hfollowed, hsent, ?_⟩
  rcases hend with ⟨last, hlast, htoken, hresult⟩ | ⟨e, he, hresult⟩
  · refine Or.inl ⟨last, _, hlast, htoken, hresult, ?_, fun id => ?_⟩
    · rw [Conditions.foldl_takePage]
      exact Conditions.distinct_foldl_take Table.distinct_empty _
    · rw [Conditions.foldl_takePage, Conditions.get?_foldl_take]
      exact Option.or_none
  · exact Or.inr ⟨e, he, hresult⟩

end Talk

/-! ## Two pages -/

namespace TwoPages

open Talk

/-- An entry for a volume, with or without a condition. -/
def entry (id : String) (condition : Option Condition) : VolumeEntry :=
  ⟨some ⟨0, id⟩, some ⟨[], condition⟩⟩

/-- Two volumes are ill. -/
def first : ListPage :=
  ⟨[entry "vol-1" (some ⟨true, "disk is failing"⟩), entry "vol-2" (some ⟨true, "no space left"⟩)],
    "page-2"⟩

/-- One of them is well, and nothing is said about the other one, nor about a third; a condition
belongs to no volume. -/
def second : ListPage :=
  ⟨[entry "vol-1" (some ⟨false, "all is well"⟩), entry "vol-2" none, ⟨some ⟨0, "vol-3"⟩, none⟩,
    ⟨none, some ⟨[], some ⟨true, "whose?"⟩⟩⟩], ""⟩

/-- The driver sends both pages. -/
def replies : List Reply := [.body (Message.encode first), .body (Message.encode second)]

/-- Both pages are asked for, and what the second one says about a volume overrules the first. -/
theorem lists_both :
    (listConditions replies).sent =
      [⟨.listVolumes, Message.encode (⟨0, ""⟩ : ListRequest)⟩,
        ⟨.listVolumes, Message.encode (⟨0, "page-2"⟩ : ListRequest)⟩] ∧
    ∃ known, (listConditions replies).result = .ok known ∧
      Table.get? known "vol-1" = some ⟨false, "all is well"⟩ ∧
      Table.get? known "vol-2" = some ⟨true, "no space left"⟩ ∧
      Table.get? known "vol-3" = none := by
  have hfirst : (Reply.body (Message.encode first)).page = .ok first := by decide +kernel
  have hsecond : (Reply.body (Message.encode second)).page = .ok second := by decide +kernel
  obtain ⟨pages, hfollowed, hsent, hend⟩ := listConditions_pages replies
  obtain rfl : pages = [first] := by
    match pages with
    | [] =>
      rcases hend with ⟨last, -, hlast, htoken, -⟩ | ⟨e, he, -⟩
      · obtain rfl : first = last := Except.ok.inj (hfirst.symm.trans hlast)
        exact absurd htoken (by decide)
      · cases hfirst.symm.trans he
    | [p] =>
      exact congrArg (fun p => [p]) (Except.ok.inj ((hfollowed 0 p rfl).1.symm.trans hfirst))
    | p :: q :: rest =>
      obtain ⟨hq, htoken⟩ := hfollowed 1 q rfl
      obtain rfl : second = q := Except.ok.inj (hsecond.symm.trans hq)
      exact absurd rfl htoken
  rcases hend with ⟨last, known, hlast, -, hresult, -, hknown⟩ | ⟨e, he, -⟩
  · obtain rfl : second = last := Except.ok.inj (hsecond.symm.trans hlast)
    refine ⟨hsent, known, hresult, ?_, ?_, ?_⟩
    · rw [hknown]
      decide
    · rw [hknown]
      decide
    · rw [hknown]
      decide
  · cases hsecond.symm.trans he

end TwoPages

end StorageHealth
