import WSNet2.Binary.Codec
import WSNet2.Binary.Event
import WSNet2.Game.Room.Basic
import WSNet2.Game.Room.Dispatch
import WSNet2.Game.Room.Inversion
import WSNet2.Game.Room.Membership
import WSNet2.Game.Room.Interleaving
import WSNet2.Game.Room.Watchers
import WSNet2.Game.Room.Permission
import WSNet2.Game.Room.Props
import WSNet2.Game.Room.Loop
import WSNet2.Game.Room.Safety
import WSNet2.Game.Room.Notify
import WSNet2.Game.Room.Delivery
import WSNet2.Game.Room.Lifecycle
import WSNet2.Game.Room.Replies
import WSNet2.Game.Room.Announce
import WSNet2.Game.Publisher
import WSNet2.Game.Room.Database
import WSNet2.Game.Peer
import WSNet2.Lobby.RoomService
