import Mathlib.Data.List.Basic

/-! The table of Winsock error codes.

`WinsockErrorDesc::get` is an `unordered_map::at`, which throws on a code that is
not a key. Only the name of an entry is read by the code modelled here. -/
namespace ScoutingComputer.WinsockErrorDesc

/-- `errorCodes` as `initVector` fills it: each code with its `errorName`. -/
def errorCodes : List (Int × String) := [
   (6, "WSA_INVALID_HANDLE"), (8, "WSA_NOT_ENOUGH_MEMORY"), (87, "WSA_INVALID_PARAMETER"),
   (995, "WSA_OPERATION_ABORTED"), (996, "WSA_IO_INCOMPLETE"), (997, "WSA_IO_PENDING"),
   (10004, "WSAEINTR"), (10009, "WSAEBADF"), (10013, "WSAEACCES"), (10014, "WSAEFAULT"),
   (10022, "WSAEINVAL"), (10024, "WSAEMFILE"), (10035, "WSAEWOULDBLOCK"),
   (10036, "WSAEINPROGRESS"), (10037, "WSAEALREADY"), (10038, "WSAENOTSOCK"),
   (10039, "WSAEDESTADDRREQ"), (10040, "WSAEMSGSIZE"), (10041, "WSAEPROTOTYPE"),
   (10042, "WSAENOPROTOOPT"), (10043, "WSAEPROTONOSUPPORT"), (10044, "WSAESOCKTNOSUPPORT"),
   (10045, "WSAEOPNOTSUPP"), (10046, "WSAEPFNOSUPPORT"), (10047, "WSAEAFNOSUPPORT"),
   (10048, "WSAEADDRINUSE"), (10049, "WSAEADDRNOTAVAIL"), (10050, "WSAENETDOWN"),
   (10051, "WSAENETUNREACH"), (10052, "WSAENETRESET"), (10053, "WSAECONNABORTED"),
   (10054, "WSAECONNRESET"), (10055, "WSAENOBUFS"), (10056, "WSAEISCONN"),
   (10057, "WSAENOTCONN"), (10058, "WSAESHUTDOWN"), (10059, "WSAETOOMANYREFS"),
   (10060, "WSAETIMEDOUT"), (10061, "WSAECONNREFUSED"), (10062, "WSAELOOP"),
   (10063, "WSAENAMETOOLONG"), (10064, "WSAEHOSTDOWN"), (10065, "WSAEHOSTUNREACH"),
   (10066, "WSAENOTEMPTY"), (10067, "WSAEPROCLIM"), (10068, "WSAEUSERS"), (10069, "WSAEDQUOT"),
   (10070, "WSAESTALE"), (10071, "WSAEREMOTE"), (10091, "WSASYSNOTREADY"),
   (10092, "WSAVERNOTSUPPORTED"), (10093, "WSANOTINITIALISED"), (10101, "WSAEDISCON"),
   (10102, "WSAENOMORE"), (10103, "WSAECANCELLED"), (10104, "WSAEINVALIDPROCTABLE"),
   (10105, "WSAEINVALIDPROVIDER"), (10106, "WSAEPROVIDERFAILEDINIT"),
   (10107, "WSASYSCALLFAILURE"), (10108, "WSASERVICE_NOT_FOUND"), (10109, "WSATYPE_NOT_FOUND"),
   (10110, "WSA_E_NO_MORE"), (10111, "WSA_E_CANCELLED"), (10112, "WSAEREFUSED"),
   (11001, "WSAHOST_NOT_FOUND"), (11002, "WSATRY_AGAIN"), (11003, "WSANO_RECOVERY"),
   (11004, "WSANO_DATA"), (11005, "WSA_QOS_RECEIVERS"), (11006, "WSA_QOS_SENDERS"),
   (11007, "WSA_QOS_NO_SENDERS"), (11008, "WSA_QOS_NO_RECEIVERS"),
   (11009, "WSA_QOS_REQUEST_CONFIRMED"), (11010, "WSA_QOS_ADMISSION_FAILURE"),
   (11011, "WSA_QOS_POLICY_FAILURE"), (11012, "WSA_QOS_BAD_STYLE"),
   (11013, "WSA_QOS_BAD_OBJECT"), (11014, "WSA_QOS_TRAFFIC_CTRL_ERROR"),
   (11015, "WSA_QOS_GENERIC_ERROR"), (11016, "WSA_QOS_ESERVICETYPE"),
   (11017, "WSA_QOS_EFLOWSPEC"), (11018, "WSA_QOS_EPROVSPECBUF"),
   (11019, "WSA_QOS_EFILTERSTYLE"), (11020, "WSA_QOS_EFILTERTYPE"),
   (11021, "WSA_QOS_EFILTERCOUNT"), (11022, "WSA_QOS_EOBJLENGTH"),
   (11023, "WSA_QOS_EFLOWCOUNT"), (11024, "WSA_QOS_EUNKOWNPSOBJ"),
   (11025, "WSA_QOS_EPOLICYOBJ"), (11026, "WSA_QOS_EFLOWDESC"), (11027, "WSA_QOS_EPSFLOWSPEC"),
   (11028, "WSA_QOS_EPSFILTERSPEC"), (11029, "WSA_QOS_ESDMODEOBJ"),
   (11030, "WSA_QOS_ESHAPERATEOBJ"), (11031, "WSA_QOS_RESERVED_PETYPE")]
/-- The entry of a code; `none` is the `std::out_of_range` of `at`. -/
def get (errorCode : Int) : Option String := errorCodes.lookup errorCode

/-- The codes that `get` describes. -/
def Known (errorCode : Int) : Prop := (get errorCode).isSome = true

instance (errorCode : Int) : Decidable (Known errorCode) := inferInstanceAs (Decidable (_ = true))

end ScoutingComputer.WinsockErrorDesc
