import Mathlib.Data.List.Basic

/-! # Paging through a list by cursor

A server hands out a list in pages. A page says at which cursor the next one
begins, and the last page names none. The size of a page is the server's choice
up to the limit that it is asked for, so an empty page may come at any time.
-/
namespace OpenJobSpec.CursorPaging
variable {σ κ α : Type*}

structure Page (κ α : Type*) where
  items : List α
  next : Option κ

/-- In a state, asked for so many items from a cursor on, a server answers with a page and goes
on in another state, or it fails. -/
abbrev Server (σ κ α : Type*) := σ → ℕ → Option κ → Option (Page κ α × σ)

variable {server : Server σ κ α}

/-- From a cursor on, the server hands out the list in pages, whatever limits it is asked for, and
names no cursor twice. -/
inductive Serves (server : Server σ κ α) : σ → Option κ → List κ → List α → Prop
  | page {s : σ} {cursor : Option κ} {seen : List κ} {items : List α}
      (page : ℕ → Page κ α) (after : ℕ → σ) (rest : ℕ → List α)
      (hserve : ∀ n, 0 < n → server s n cursor = some (page n, after n))
      (hsize : ∀ n, 0 < n → (page n).items.length ≤ n)
      (hitems : ∀ n, 0 < n → items = (page n).items ++ rest n)
      (hlast : ∀ n, 0 < n → (page n).next = none → rest n = [])
      (hfresh : ∀ n c, 0 < n → (page n).next = some c → c ∉ seen)
      (hnext : ∀ n c, 0 < n → (page n).next = some c →
        Serves server (after n) (some c) (c :: seen) (rest n)) :
      Serves server s cursor seen items

/-- Followed for so many items, the server names a cursor again before it has handed them out. -/
inductive Repeats (server : Server σ κ α) : σ → Option κ → List κ → ℕ → Prop
  | again {s after : σ} {cursor : Option κ} {seen : List κ} {need : ℕ} {page : Page κ α} {c : κ}
      (hserve : server s need cursor = some (page, after)) (hshort : page.items.length < need)
      (hnext : page.next = some c) (hseen : c ∈ seen) : Repeats server s cursor seen need
  | follow {s after : σ} {cursor : Option κ} {seen : List κ} {need : ℕ} {page : Page κ α} {c : κ}
      (hserve : server s need cursor = some (page, after)) (hshort : page.items.length < need)
      (hnext : page.next = some c) (hfresh : c ∉ seen)
      (hrest : Repeats server after (some c) (c :: seen) (need - page.items.length)) :
      Repeats server s cursor seen need

/-! ## The part of a list after some items are skipped -/

def window (skip need : ℕ) (items : List α) : List α := (items.drop skip).take need

theorem window_append (skip need : ℕ) (page rest : List α) :
    window skip need (page ++ rest) = window skip need page ++
      window (skip - page.length) (need - (page.drop skip).length) rest := by
  unfold window
  rw [List.drop_append, List.take_append]

theorem window_of_length_le {skip need : ℕ} {page : List α} (h : page.length ≤ skip + need) :
    window skip need page = page.drop skip :=
  List.take_of_length_le (by rw [List.length_drop]; omega)

/-- A page that fills the window ends where the window does. -/
theorem drop_of_filled {skip need : ℕ} {page : List α} (rest : List α)
    (hle : page.length ≤ skip + need) (hneed : 0 < need) (hfull : need ≤ (page.drop skip).length) :
    (page ++ rest).drop (skip + need) = rest := by
  have hlength : page.length = skip + need := by
    rw [List.length_drop] at hfull
    omega
  rw [← hlength, List.drop_left]

end OpenJobSpec.CursorPaging
