import LogQuery.Address.Basic

namespace LogQuery

inductive AddressClass where
  | loopback | linkLocal | multicast | reserved | private_ | public_
  deriving DecidableEq, Repr

def AddressClass.label : AddressClass → String
  | .loopback => "loopback"
  | .linkLocal => "link_local"
  | .multicast => "multicast"
  | .reserved => "reserved"
  | .private_ => "private"
  | .public_ => "public"

namespace AddressRange

/-- The ranges that are not public, each with its class. No two of them overlap. -/
def classified : List (AddressRange × AddressClass) :=
  [(⟨.ofBytes 127 0 0 0, .ofBytes 127 255 255 255⟩, .loopback),
    (⟨.ofBytes 169 254 0 0, .ofBytes 169 254 255 255⟩, .linkLocal),
    (⟨.ofBytes 224 0 0 0, .ofBytes 239 255 255 255⟩, .multicast),
    (⟨.ofBytes 0 0 0 0, .ofBytes 0 255 255 255⟩, .reserved),
    (⟨.ofBytes 240 0 0 0, .ofBytes 255 255 255 255⟩, .reserved),
    (⟨.ofBytes 192 0 0 0, .ofBytes 192 0 0 255⟩, .reserved),
    (⟨.ofBytes 192 0 2 0, .ofBytes 192 0 2 255⟩, .reserved),
    (⟨.ofBytes 198 51 100 0, .ofBytes 198 51 100 255⟩, .reserved),
    (⟨.ofBytes 203 0 113 0, .ofBytes 203 0 113 255⟩, .reserved),
    (⟨.ofBytes 198 18 0 0, .ofBytes 198 19 255 255⟩, .reserved),
    (⟨.ofBytes 10 0 0 0, .ofBytes 10 255 255 255⟩, .private_),
    (⟨.ofBytes 172 16 0 0, .ofBytes 172 31 255 255⟩, .private_),
    (⟨.ofBytes 192 168 0 0, .ofBytes 192 168 255 255⟩, .private_),
    (⟨.ofBytes 100 64 0 0, .ofBytes 100 127 255 255⟩, .private_)]

def ofClasses (classes : List AddressClass) : List AddressRange :=
  (classified.filter fun (_, c) => classes.contains c).map (·.1)

end AddressRange

/-- The class of an address: that of the first range that holds it, or else public. -/
def Address.class_ (x : Address) : AddressClass :=
  ((AddressRange.classified.find? fun (r, _) => r.contains x).map (·.2)).getD .public_

/-- A question about the class of an address: which one it is, or whether it is one of some. -/
inductive AddressQuestion where
  | classify
  | isPublic | isPrivate | isInternal | isLoopback | isLinkLocal | isMulticast | isReserved
  deriving DecidableEq, Repr

inductive AddressAnswer where
  | label (class_ : AddressClass)
  | flag (holds : Bool)
  deriving DecidableEq, Repr

namespace AddressQuestion

def all : List AddressQuestion :=
  [.classify, .isPublic, .isPrivate, .isInternal, .isLoopback, .isLinkLocal, .isMulticast,
    .isReserved]

/-- The name of the function that asks the question. -/
def name : AddressQuestion → String
  | .classify => "classify_ip"
  | .isPublic => "is_public_ip"
  | .isPrivate => "is_private_ip"
  | .isInternal => "is_internal_ip"
  | .isLoopback => "is_loopback_ip"
  | .isLinkLocal => "is_link_local_ip"
  | .isMulticast => "is_multicast_ip"
  | .isReserved => "is_reserved_ip"

def ofName? (name : String) : Option AddressQuestion := all.find? (·.name == name)

/-- The classes about which a question asks. -/
def classes : AddressQuestion → List AddressClass
  | .classify => []
  | .isPublic => [.public_]
  | .isPrivate => [.private_]
  | .isInternal => [.private_, .loopback, .linkLocal]
  | .isLoopback => [.loopback]
  | .isLinkLocal => [.linkLocal]
  | .isMulticast => [.multicast]
  | .isReserved => [.reserved]

def answer (q : AddressQuestion) (x : Address) : AddressAnswer :=
  match q with
  | .classify => .label x.class_
  | _ => .flag (q.classes.contains x.class_)

end AddressQuestion

end LogQuery
