import TinyProxy.Proxy.Listen
import Mathlib.Data.List.Lex
import Mathlib.Data.Char

/-!
# Certificates by host name

`build_tls_acceptor` and its resolver.  Reading PEM files and what `rustls` makes
of a private key are parameters.
-/

set_option autoImplicit false

namespace TinyProxy

open Rust

/-! ## Loading -/

/-- The files with their PEM sections, and the keys that can sign. -/
structure PemFiles (Cert Key SigningKey : Type) where
  certs : Str → Except Str (List Cert)
  privateKey : Str → Except Str (Option Key)
  anySupportedType : Key → Except Str SigningKey

structure CertifiedKey (Cert SigningKey : Type) where
  certs : List Cert
  key : SigningKey
deriving DecidableEq

/-- `entries` is keyed by host names in lower case. -/
structure SniCertResolver (Cert SigningKey : Type) where
  entries : AList fun _ : Str => CertifiedKey Cert SigningKey
  default : Option (CertifiedKey Cert SigningKey)

section Loading
variable {Cert Key SigningKey : Type} (files : PemFiles Cert Key SigningKey)

def loadCerts (path : Str) : Except Str (List Cert) := do
  let certs ← files.certs path
  if certs.isEmpty then .error ("No certificates found in ".toList ++ path) else .ok certs

def loadKey (path : Str) : Except Str Key := do
  match ← files.privateKey path with
  | none => .error ("No private key found in ".toList ++ path)
  | some key => .ok key

/-- The certificate and key of one entry. -/
def certifiedKey (entry : TlsEntry) : Except Str (CertifiedKey Cert SigningKey) := do
  let certs ← loadCerts files entry.2.certPath
  let key ← loadKey files entry.2.keyPath
  match files.anySupportedType key with
  | .error e => .error ("Unsupported key type in ".toList ++ entry.2.keyPath ++
      " for host ".toList ++ entry.1 ++ ": ".toList ++ e)
  | .ok signingKey => .ok ⟨certs, signingKey⟩

/-- The loop over the entries. -/
def addEntries (defaultHostname : Option Str) : List TlsEntry → SniCertResolver Cert SigningKey →
    Except Str (SniCertResolver Cert SigningKey)
  | [], resolver => .ok resolver
  | entry :: rest, resolver => do
      let certified ← certifiedKey files entry
      addEntries defaultHostname rest
        ⟨resolver.entries.insert (toAsciiLowercase entry.1) certified,
          if defaultHostname.any (eqIgnoreAsciiCase entry.1) then some certified
          else resolver.default⟩

/-- `sort` and `first`; code points are in the order of their UTF-8 bytes. -/
def firstHostname (hostnames : List Str) : Option Str :=
  (hostnames.mergeSort fun first second => decide (first ≤ second)).head?

def buildTlsAcceptor (sites : List TlsEntry) (defaultHostname : Option Str) :
    Except Str (SniCertResolver Cert SigningKey) :=
  if sites = [] then .error "Cannot build TLS acceptor: no TLS sites provided".toList
  else do
    let resolver ← addEntries files defaultHostname sites ⟨∅, none⟩
    match resolver.default with
    | some _ => .ok resolver
    | none =>
        .ok ⟨resolver.entries, (firstHostname resolver.entries.keys).bind resolver.entries.lookup⟩

/-- What `startAll` needs to know of the acceptor. -/
def acceptorOf (sites : List TlsEntry) : Except Str Unit :=
  (buildTlsAcceptor files sites none).map fun _ => ()

end Loading

/-- The certificate for a `ClientHello` with or without a server name. -/
def SniCertResolver.resolve {Cert SigningKey : Type} (resolver : SniCertResolver Cert SigningKey)
    (serverName : Option Str) : Option (CertifiedKey Cert SigningKey) :=
  match serverName.bind fun sni => resolver.entries.lookup (toAsciiLowercase sni) with
  | some cert => some cert
  | none => resolver.default

/-! ## The table -/

section Table
variable {Cert Key SigningKey : Type} {files : PemFiles Cert Key SigningKey}

/-- The first name is the least one. -/
theorem firstHostname_eq_some_iff {hostnames : List Str} {name : Str} :
    firstHostname hostnames = some name ↔
      name ∈ hostnames ∧ ∀ other ∈ hostnames, name ≤ other := by
  unfold firstHostname
  generalize isSorted : (hostnames.mergeSort fun first second => decide (first ≤ second)) = sorted
  have same : sorted.Perm hostnames := isSorted ▸ List.mergeSort_perm ..
  have ordered : sorted.Pairwise (· ≤ ·) := by
    have pairwise := @List.pairwise_mergeSort Str (fun first second => decide (first ≤ second))
      (fun a b c ab bc => by
        rw [decide_eq_true_iff] at *
        exact le_trans ab bc)
      (fun a b => by
        rw [Bool.or_eq_true, decide_eq_true_iff, decide_eq_true_iff]
        exact le_total a b) hostnames
    rw [isSorted] at pairwise
    exact pairwise.imp of_decide_eq_true
  cases sorted with
  | nil =>
      obtain rfl := List.nil_perm.mp same
      simp
  | cons first rest =>
      have least : ∀ other ∈ hostnames, first ≤ other := by
        intro other member
        rcases List.mem_cons.mp (same.mem_iff.mpr member) with rfl | later
        · exact le_refl _
        · exact (List.pairwise_cons.mp ordered).1 other later
      have member : first ∈ hostnames := same.mem_iff.mp (List.mem_cons_self ..)
      rw [List.head?_cons, Option.some.injEq]
      constructor
      · rintro rfl
        exact ⟨member, least⟩
      · rintro ⟨isName, isLeast⟩
        exact le_antisymm (least name isName) (isLeast first member)

def tableName (entry : TlsEntry) : Str := toAsciiLowercase entry.1

/-- Entries with different names all end up in the table, each with its certificate. -/
theorem addEntries_distinct : ∀ {entries : List TlsEntry}
    {resolver : SniCertResolver Cert SigningKey},
    (∀ entry ∈ entries, ∃ key, certifiedKey files entry = .ok key) →
    (entries.map tableName).Nodup → (∀ entry ∈ entries, tableName entry ∉ resolver.entries) →
    ∃ final, addEntries files none entries resolver = .ok final ∧
      final.default = resolver.default ∧
      (∀ name, name ∈ final.entries ↔ name ∈ entries.map tableName ∨ name ∈ resolver.entries) ∧
      (∀ name, name ∈ resolver.entries →
        final.entries.lookup name = resolver.entries.lookup name) ∧
      ∀ entry ∈ entries,
        final.entries.lookup (tableName entry) = (certifiedKey files entry).toOption := by
  intro entries
  induction entries with
  | nil =>
      intro resolver _ _ _
      exact ⟨resolver, rfl, rfl, by simp, fun _ _ => rfl, by simp⟩
  | cons entry rest ih =>
      intro resolver loads distinct fresh
      obtain ⟨apart, others⟩ := List.nodup_cons.mp distinct
      obtain ⟨key, load⟩ := loads entry (List.mem_cons_self ..)
      have new := fresh entry (List.mem_cons_self ..)
      obtain ⟨final, run, default_, names, kept, found⟩ :=
        @ih ⟨resolver.entries.insert (tableName entry) key, resolver.default⟩
          (fun later member => loads later (List.mem_cons_of_mem _ member)) others
          (fun later member known => by
            rcases (AList.mem_insert _).mp known with same | before
            · exact apart (same ▸ List.mem_map_of_mem member)
            · exact fresh later (List.mem_cons_of_mem _ member) before)
      refine ⟨final, ?_, default_, fun name => ?_, fun name known => ?_, ?_⟩
      · rw [addEntries, load]
        exact run
      · rw [names, AList.mem_insert, List.map_cons, List.mem_cons, or_left_comm, or_assoc]
      · have other : name ≠ tableName entry := fun same => new (same ▸ known)
        rw [kept name ((AList.mem_insert _).mpr (Or.inr known))]
        exact AList.lookup_insert_ne other
      · refine List.forall_mem_cons.mpr ⟨?_, found⟩
        rw [kept _ ((AList.mem_insert _).mpr (Or.inl rfl)), load]
        exact AList.lookup_insert _

theorem addEntries_loads (defaultHostname : Option Str) : ∀ {entries : List TlsEntry}
    {resolver : SniCertResolver Cert SigningKey},
    (∀ entry ∈ entries, ∃ key, certifiedKey files entry = .ok key) →
    ∃ final, addEntries files defaultHostname entries resolver = .ok final := by
  intro entries
  induction entries with
  | nil => exact fun _ => ⟨_, rfl⟩
  | cons entry rest ih =>
      intro resolver loads
      obtain ⟨key, load⟩ := loads entry (List.mem_cons_self ..)
      rw [addEntries, load]
      exact ih fun later member => loads later (List.mem_cons_of_mem _ member)

theorem acceptorOf_loads {entries : List TlsEntry} (some_ : entries ≠ [])
    (loads : ∀ entry ∈ entries, ∃ key, certifiedKey files entry = .ok key) :
    acceptorOf files entries = .ok () := by
  obtain ⟨resolver, run⟩ := @addEntries_loads _ _ _ files none entries ⟨∅, none⟩ loads
  rw [acceptorOf, buildTlsAcceptor, if_neg some_, run]
  cases resolver with
  | mk names default => cases default <;> rfl

end Table

end TinyProxy
